import CpuSteward.Controller
import Mathlib.Data.List.Sort
import Mathlib.Data.Nat.Bitwise

/-!
# Guarded steps

Some steps have no result for some operands: a place past the end of a table, a difference
below zero, a sum that no word can hold, a division by zero, a shift past the end of a word.
Here such steps have a guard, and what is put together from them has a result only if every
guard lets it pass.  The functions on masks, samples and tunables are carried out once more in
this way, step by step, on the words and tables they are about.  Each turns out to have a
result, and it is the one of the function itself.

## Main definitions

* `Guarded.add`, `sub`, `mul`, `div`, `rem`, `shiftLeft`, `shiftRight`, `clamp`, `put` — the
  steps that have a guard.
* `Guarded.members` — the loop over the bits of a mask.
* `Guarded.collect`, `totalRunning`, `overloaded` — samples, place by place.
* `Guarded.value`, `store`, `setValue` — tunables, found by their place in the order.

## Main results

* `Guarded.testBit_and_pred` — what the loop takes off a word.
* `Guarded.members_toWord` — the loop finds the members of a mask, in order.
* `Guarded.totalRunning_eq` — a sum that fits at its end fits all the way.
-/

namespace CpuSteward
namespace Guarded

/-! ### Steps that have a guard -/

section Steps

variable {α : Type} {n : Nat} {a b c : UInt64}

/-- The sum of two words, if a word can hold it. -/
def add (a b : UInt64) : Option UInt64 :=
  if a.toNat + b.toNat < UInt64.size then some (a + b) else none

/-- The difference of two words, if it is not below zero. -/
def sub (a b : UInt64) : Option UInt64 := if b ≤ a then some (a - b) else none

/-- The product of two words, if a word can hold it. -/
def mul (a b : UInt64) : Option UInt64 :=
  if a.toNat * b.toNat < UInt64.size then some (a * b) else none

/-- The quotient of two words, unless the second is zero. -/
def div (a b : UInt64) : Option UInt64 := if b = 0 then none else some (a / b)

/-- The remainder of two words, unless the second is zero. -/
def rem (a b : UInt64) : Option UInt64 := if b = 0 then none else some (a % b)

/-- A word shifted to the left, by less than its width. -/
def shiftLeft (a : UInt64) (n : Nat) : Option UInt64 :=
  if n < 64 then some (a <<< .ofNat n) else none

/-- A word shifted to the right, by less than its width. -/
def shiftRight (a : UInt64) (n : Nat) : Option UInt64 :=
  if n < 64 then some (a >>> .ofNat n) else none

/-- A value or the nearer end of a range, if the range is not empty. -/
def clamp (lo hi v : Int32) : Option Int32 :=
  if lo ≤ hi then some (if v < lo then lo else if hi < v then hi else v) else none

/-- A vector with another element at a place, if it has this place. -/
def put (v : Vector α n) (i : Nat) (a : α) : Option (Vector α n) :=
  if h : i < n then some (v.set i a h) else none

theorem add_ofNat (i j : Nat) (h : i + j < UInt64.size) :
    add (.ofNat i) (.ofNat j) = some (.ofNat (i + j)) := by
  rw [UInt64.ofNat_add]
  refine if_pos ?_
  rwa [UInt64.toNat_ofNat_of_lt' (by omega), UInt64.toNat_ofNat_of_lt' (by omega)]

theorem sub_eq_some_iff : sub a b = some c ↔ b ≤ a ∧ a - b = c := by
  unfold sub
  split <;> simp_all

theorem mul_eq (h : a.toNat * b.toNat < UInt64.size) : mul a b = some (a * b) := if_pos h

theorem div_eq (h : b ≠ 0) : div a b = some (a / b) := if_neg h

theorem rem_eq (h : b ≠ 0) : rem a b = some (a % b) := if_neg h

theorem shiftLeft_eq {i : Nat} (h : i < 64) : shiftLeft a i = some (a <<< .ofNat i) := if_pos h

theorem shiftRight_eq {i : Nat} (h : i < 64) : shiftRight a i = some (a >>> .ofNat i) := if_pos h

theorem put_eq {v : Vector α n} {i : Nat} {x : α} (h : i < n) :
    put v i x = some (v.set i x h) := dif_pos h

/-- A loop that has a result in every round has the result of the loop without guards. -/
theorem foldlM_eq {β : Type} {l : List α} {f : β → α → Option β} {g : β → α → β}
    (h : ∀ b, ∀ a ∈ l, f b a = some (g b a)) (b : β) : l.foldlM f b = some (l.foldl g b) := by
  induction l generalizing b with
  | nil => rfl
  | cons a l ih =>
    rw [List.foldlM_cons, h b a List.mem_cons_self, List.foldl_cons]
    exact ih (fun b a' ha' => h b a' (List.mem_cons_of_mem _ ha')) (g b a)

theorem mapM_eq {β : Type} {l : List α} {f : α → Option β} {g : α → β}
    (h : ∀ a ∈ l, f a = some (g a)) : l.mapM f = some (l.map g) := by
  induction l with
  | nil => rfl
  | cons a l ih =>
    rw [List.mapM_cons, h a List.mem_cons_self, ih fun a' ha' => h a' (List.mem_cons_of_mem _ ha')]
    rfl

/-- How many elements a list has, counted up in a word. -/
def count (l : List α) : Option UInt64 := l.foldlM (fun n _ => add n 1) 0

theorem count_eq {l : List α} (h : l.length < UInt64.size) : count l = some (.ofNat l.length) := by
  have key : ∀ n : Nat, n + l.length < UInt64.size →
      l.foldlM (fun n _ => add n 1) (UInt64.ofNat n) = some (.ofNat (n + l.length)) := by
    clear h
    induction l with
    | nil => exact fun n _ => rfl
    | cons a l ih =>
      intro n hn
      rw [List.length_cons] at hn
      have hstep : add (.ofNat n) 1 = some (.ofNat (n + 1)) := add_ofNat n 1 (by omega)
      have hrest := ih (n + 1) (by omega)
      rw [List.foldlM_cons, hstep, List.length_cons, ← Nat.add_assoc, Nat.add_right_comm]
      exact hrest
  have hall := key 0 (by omega)
  rwa [Nat.zero_add] at hall

end Steps

/-! ### Masks as words -/

section Masks

variable {m : CpuMask} {w : UInt64} {cpu : Nat}

/-- The word of the CPUs `0, …, n - 1`, as far as they exist. -/
def first (n : Nat) : Option UInt64 := do
  let n := if maxCpus < n then maxCpus else n
  if 64 ≤ n then some (.ofNat (UInt64.size - 1)) else sub (← shiftLeft 1 n) 1

/-- The word without the bits that belong to no CPU. -/
def ofBits (w : UInt64) : Option UInt64 := do some (w &&& (← first maxCpus))

/-- The test for one bit. -/
def test (w : UInt64) (cpu : Nat) : Option Bool :=
  if cpu < maxCpus then do some (w &&& (← shiftLeft 1 cpu) != 0) else some false

/-- Set one bit. -/
def insert (w : UInt64) (cpu : Nat) : Option UInt64 :=
  if cpu < maxCpus then do some (w ||| (← shiftLeft 1 cpu)) else some w

/-- Clear one bit. -/
def erase (w : UInt64) (cpu : Nat) : Option UInt64 :=
  if cpu < maxCpus then do some (w &&& ~~~(← shiftLeft 1 cpu)) else some w

theorem toNat_and_lt_of_sub {low : UInt64} (hw : w ≠ 0) (h : sub w 1 = some low) :
    (w &&& low).toNat < w.toNat := by
  obtain ⟨hle, rfl⟩ := sub_eq_some_iff.1 h
  have hpos : w.toNat ≠ 0 := fun h0 => hw (UInt64.toNat_inj.1 h0)
  have hand := Nat.and_le_right (n := w.toNat) (m := w.toNat - 1)
  rw [UInt64.toNat_and, UInt64.toNat_sub_of_le _ _ hle, UInt64.toNat_one]
  omega

/-- The places of the bits of a word.  Each round takes the lowest one off. -/
def members (w : UInt64) : Option (List Nat) :=
  if _hw : w = 0 then some []
  else
    match _h : sub w 1 with
    | none => none
    | some low => (members (w &&& low)).map (w.toBitVec.ctz.toNat :: ·)
termination_by w.toNat
decreasing_by exact toNat_and_lt_of_sub _hw _h

/-- A number and its predecessor have the bits of the number in common, all but the lowest. -/
theorem testBit_and_pred {n t : Nat} (ht : n.testBit t = true)
    (hlow : ∀ i < t, n.testBit i = false) (i : Nat) :
    (n &&& (n - 1)).testBit i = (n.testBit i && decide (i ≠ t)) := by
  have hmod : n % 2 ^ t = 0 := Nat.eq_of_testBit_eq fun i => by
    rw [Nat.testBit_mod_two_pow, Nat.zero_testBit]
    by_cases hi : i < t
    · rw [hlow i hi, Bool.and_false]
    · simp [hi]
  -- the number is an odd multiple of a power of two
  obtain ⟨q, hq⟩ := Nat.dvd_of_mod_eq_zero hmod
  have hodd : q % 2 = 1 := by
    have h := ht
    rw [hq, Nat.testBit_two_pow_mul] at h
    simpa [Nat.testBit_zero] using h
  have hpos := Nat.two_pow_pos t
  have hpred : n - 1 = 2 ^ t * (q - 1) + (2 ^ t - 1) := by
    have hle : 2 ^ t ≤ 2 ^ t * q := Nat.le_mul_of_pos_right _ (by omega)
    rw [hq, Nat.mul_sub, Nat.mul_one]
    omega
  rw [Nat.testBit_and, hpred, Nat.testBit_two_pow_mul_add _ (by omega)]
  rcases Nat.lt_trichotomy i t with hi | rfl | hi
  · simp [hlow i hi]
  · have heven : (q - 1).testBit 0 = false := by
      rw [Nat.testBit_zero, decide_eq_false_iff_not]
      omega
    simp [heven]
  · have hshift : (q - 1).testBit (i - t) = n.testBit i := by
      obtain ⟨j, rfl⟩ : ∃ j, i = t + (j + 1) := ⟨i - t - 1, by omega⟩
      have hhalf : (q - 1) / 2 = q / 2 := by omega
      rw [hq, Nat.testBit_two_pow_mul, Nat.add_sub_cancel_left, Nat.testBit_succ,
        Nat.testBit_succ, hhalf]
      simp
    rw [if_neg (by omega), hshift]
    simp [Nat.ne_of_gt hi]

theorem pairwise_filter_range (n : Nat) (p : Nat → Bool) :
    ((List.range n).filter p).Pairwise (· < ·) := List.pairwise_lt_range.filter p

/-- The loop finds every bit, from the lowest to the highest. -/
theorem members_eq (w : UInt64) :
    members w = some ((List.range 64).filter fun i => w.toBitVec.getLsbD i) := by
  induction w using members.induct with
  | case1 =>
    rw [members, dif_pos rfl]
    simp
  | case2 w hw h =>
    have hle : 1 ≤ w := UInt64.le_iff_toNat_le.2
      (Nat.one_le_iff_ne_zero.2 fun h0 => hw (UInt64.toNat_inj.1 h0))
    cases h.symm.trans (sub_eq_some_iff.2 ⟨hle, rfl⟩)
  | case3 w hw low h ih =>
    obtain ⟨hle, rfl⟩ := sub_eq_some_iff.1 h
    have hne : w.toBitVec ≠ 0#64 := fun h0 => hw (UInt64.toBitVec_inj.1 h0)
    have ht := BitVec.getLsbD_true_ctz_of_ne_zero hne
    have hlow : ∀ i < w.toBitVec.ctz.toNat, w.toBitVec.getLsbD i = false := fun i hi =>
      BitVec.getLsbD_false_of_lt_ctz hi
    have hbit : ∀ i, (w &&& (w - 1)).toBitVec.getLsbD i =
        (w.toBitVec.getLsbD i && decide (i ≠ w.toBitVec.ctz.toNat)) := by
      intro i
      have hnat : (w &&& (w - 1)).toNat = w.toNat &&& (w.toNat - 1) := by
        rw [UInt64.toNat_and, UInt64.toNat_sub_of_le _ _ hle, UInt64.toNat_one]
      rw [← BitVec.testBit_toNat, UInt64.toNat_toBitVec, hnat]
      exact testBit_and_pred (n := w.toNat) ht hlow i
    have hround : members w = (members (w &&& (w - 1))).map (w.toBitVec.ctz.toNat :: ·) := by
      rw [members, dif_neg hw]
      split
      · rename_i hnone
        cases h.symm.trans hnone
      · rename_i low hsome
        obtain ⟨-, rfl⟩ := sub_eq_some_iff.1 hsome
        rfl
    rw [hround, ih, Option.map_some, Option.some_inj]
    -- both lists ascend, and they have the same elements
    refine List.Pairwise.eq_of_mem_iff
      (List.pairwise_cons.2 ⟨fun i hi => ?_, pairwise_filter_range 64 _⟩)
      (pairwise_filter_range 64 _) fun i => ?_
    · rw [List.mem_filter, hbit, Bool.and_eq_true, decide_eq_true_eq] at hi
      by_contra hge
      have := hlow i (by omega)
      simp [hi.2.1] at this
    · have hwidth : w.toBitVec.ctz.toNat < 64 := BitVec.lt_of_getLsbD ht
      simp only [List.mem_cons, List.mem_filter, List.mem_range, hbit, Bool.and_eq_true,
        decide_eq_true_eq]
      by_cases hi : i = w.toBitVec.ctz.toNat
      · simp [hi, hwidth, ht]
      · simp [hi]

/-! ### The words of masks -/

theorem getLsbD_toWord (m : CpuMask) (c : Nat) :
    m.toWord.toBitVec.getLsbD c = m.contains c := by
  rw [CpuMask.toWord, UInt64.toBitVec_ofBitVec, BitVec.getLsbD_setWidth, CpuMask.contains]
  by_cases hc : c < maxCpus
  · simp [hc, Nat.lt_trans hc (by decide : maxCpus < 64)]
  · simp [hc, BitVec.getLsbD_of_ge _ _ (Nat.not_lt.1 hc)]

/-- A word with the bits of a mask is the word of the mask. -/
theorem eq_toWord (h : ∀ c, w.toBitVec.getLsbD c = m.contains c) : w = m.toWord := by
  rw [← UInt64.toBitVec_inj]
  exact BitVec.eq_of_getLsbD_eq fun c _ => (h c).trans (getLsbD_toWord m c).symm

theorem toWord_eq_zero_iff (m : CpuMask) : m.toWord = 0 ↔ m.isEmpty = true := by
  rw [CpuMask.isEmpty, beq_iff_eq, CpuMask.toWord, ← UInt64.toBitVec_inj,
    UInt64.toBitVec_ofBitVec]
  constructor
  · intro h
    have hnat := congrArg BitVec.toNat h
    rw [BitVec.toNat_setWidth_of_le (by decide)] at hnat
    exact BitVec.eq_of_toNat_eq hnat
  · intro h
    rw [h]
    rfl

theorem toBitVec_one_shiftLeft {n : Nat} (h : n < 64) :
    ((1 : UInt64) <<< .ofNat n).toBitVec = BitVec.twoPow 64 n := by
  apply BitVec.eq_of_toNat_eq
  have hmod : n % 18446744073709551616 = n := by omega
  rw [UInt64.toNat_toBitVec, UInt64.toNat_shiftLeft, UInt64.toNat_ofNat', BitVec.toNat_twoPow]
  simp [Nat.mod_eq_of_lt, h, Nat.one_shiftLeft, hmod]

theorem shiftLeft_one_of_lt (h : cpu < 64) :
    ∃ bit, shiftLeft 1 cpu = some bit ∧ bit.toBitVec = BitVec.twoPow 64 cpu :=
  ⟨_, shiftLeft_eq h, toBitVec_one_shiftLeft h⟩

theorem lt_width_of_lt (h : cpu < maxCpus) : cpu < 64 := Nat.lt_trans h (by decide)

theorem first_eq (n : Nat) : first n = some (CpuMask.first n).toWord := by
  have hn : (if maxCpus < n then maxCpus else n) = min n maxCpus := by
    split <;> omega
  have hwidth : min n maxCpus < 64 := Nat.lt_of_le_of_lt (Nat.min_le_right _ _) (by decide)
  obtain ⟨bit, hbit, hpow⟩ := shiftLeft_one_of_lt hwidth
  have hnat : bit.toNat = 2 ^ min n maxCpus := by
    rw [← UInt64.toNat_toBitVec, hpow, BitVec.toNat_twoPow,
      Nat.mod_eq_of_lt (Nat.pow_lt_pow_right (by decide) hwidth)]
  have hle : 1 ≤ bit := by
    rw [UInt64.le_iff_toNat_le, hnat, UInt64.toNat_one]
    exact Nat.two_pow_pos _
  unfold first
  rw [hn, if_neg (Nat.not_le.2 hwidth), hbit]
  show sub bit 1 = _
  rw [sub_eq_some_iff.2 ⟨hle, rfl⟩, Option.some_inj]
  refine eq_toWord fun c => ?_
  rw [← BitVec.testBit_toNat, UInt64.toNat_toBitVec, UInt64.toNat_sub_of_le _ _ hle, hnat,
    UInt64.toNat_one, Nat.testBit_two_pow_sub_one, CpuMask.contains, CpuMask.first]
  by_cases hc : c < min n maxCpus
  · have : c < maxCpus := Nat.lt_of_lt_of_le hc (Nat.min_le_right _ _)
    simp [hc, this]
  · simp [hc]

theorem ofBits_eq (w : UInt64) : ofBits w = some (CpuMask.ofWord w).toWord := by
  unfold ofBits
  rw [first_eq]
  show some _ = _
  rw [Option.some_inj]
  refine eq_toWord fun c => ?_
  rw [UInt64.toBitVec_and, BitVec.getLsbD_and, getLsbD_toWord, CpuMask.contains, CpuMask.contains,
    CpuMask.ofWord, CpuMask.first]
  by_cases hc : c < maxCpus
  · simp [hc]
  · simp [hc]

theorem test_toWord (m : CpuMask) (cpu : Nat) : test m.toWord cpu = some (m.contains cpu) := by
  unfold test
  split
  · rename_i hcpu
    obtain ⟨bit, hbit, hpow⟩ := shiftLeft_one_of_lt (lt_width_of_lt hcpu)
    rw [hbit]
    show some (m.toWord &&& bit != 0) = _
    rw [Option.some_inj, Bool.eq_iff_iff, bne_iff_ne, ne_eq, ← UInt64.toBitVec_inj,
      UInt64.toBitVec_and, hpow, BitVec.and_twoPow, getLsbD_toWord]
    cases m.contains cpu with
    | false => simp
    | true =>
      have hne : BitVec.twoPow 64 cpu ≠ 0#64 := fun h0 => by
        have hself := congrArg (BitVec.getLsbD · cpu) h0
        simp [lt_width_of_lt hcpu] at hself
      simpa using hne
  · rename_i hcpu
    rw [Option.some_inj, CpuMask.contains, decide_eq_false hcpu, Bool.false_and]

theorem insert_toWord (m : CpuMask) (cpu : Nat) :
    insert m.toWord cpu = some (m.insert cpu).toWord := by
  unfold insert CpuMask.insert
  split
  · rename_i hcpu
    obtain ⟨bit, hbit, hpow⟩ := shiftLeft_one_of_lt (lt_width_of_lt hcpu)
    rw [hbit]
    show some (m.toWord ||| bit) = _
    rw [Option.some_inj]
    refine eq_toWord fun c => ?_
    rw [UInt64.toBitVec_or, BitVec.getLsbD_or, getLsbD_toWord, hpow, CpuMask.contains,
      CpuMask.contains]
    simp only [BitVec.getLsbD_or, BitVec.getLsbD_twoPow]
    grind
  · rfl

theorem erase_toWord (m : CpuMask) (cpu : Nat) :
    erase m.toWord cpu = some (m.erase cpu).toWord := by
  unfold erase CpuMask.erase
  split
  · rename_i hcpu
    obtain ⟨bit, hbit, hpow⟩ := shiftLeft_one_of_lt (lt_width_of_lt hcpu)
    rw [hbit]
    show some (m.toWord &&& ~~~bit) = _
    rw [Option.some_inj]
    refine eq_toWord fun c => ?_
    rw [UInt64.toBitVec_and, BitVec.getLsbD_and, getLsbD_toWord, UInt64.toBitVec_not, hpow,
      CpuMask.contains, CpuMask.contains]
    simp only [BitVec.getLsbD_and, BitVec.getLsbD_not, BitVec.getLsbD_twoPow]
    grind
  · rfl

/-- **The loop finds the members of a mask**, in ascending order. -/
theorem members_toWord (m : CpuMask) : members m.toWord = some m.toList := by
  rw [members_eq, Option.some_inj]
  refine List.Pairwise.eq_of_mem_iff (pairwise_filter_range 64 _)
    m.pairwise_toList fun c => ?_
  rw [CpuMask.mem_toList, List.mem_filter, List.mem_range, getLsbD_toWord,
    CpuMask.contains_eq_true]
  exact ⟨fun h => h.2, fun h => ⟨lt_width_of_lt (CpuMask.lt_of_mem h), h⟩⟩

end Masks

/-! ### Samples -/

section Samples

variable {s : LoadSample} {k : Kernel}

/-- Take a sample: every online CPU has a place in the table of counters. -/
def collect (k : Kernel) : Option LoadSample := do
  let cpus ← members k.online.toWord
  let counters ← cpus.foldlM (fun counters c => put counters c (k.load c))
    (.replicate maxCpus {})
  some { timestamp := k.now, online := k.online, counters }

/-- The counters of a CPU, zero if it was offline or does not exist. -/
def loadOf (s : LoadSample) (c : Nat) : Option CpuLoad := do
  if ← test s.online.toWord c then s.counters[c]? else some {}

/-- The runnable tasks of all online CPUs, summed up in a word that may not wrap. -/
def totalRunning (s : LoadSample) : Option UInt64 := do
  (← members s.online.toWord).foldlM (fun n c => do add n (← s.counters[c]?).running) 0

/-- The context switches of all online CPUs, summed up in a word that may wrap. -/
def totalSwitches (s : LoadSample) : Option UInt64 := do
  (← members s.online.toWord).foldlM (fun n c => do some (n + (← s.counters[c]?).switches)) 0

/-- The runnable tasks per online CPU; where none is online nothing is divided. -/
def average (s : LoadSample) : Option UInt64 := do
  if s.onlineCount = 0 then some 0 else div (← totalRunning s) s.onlineCount

/-- The word of the online CPUs that are overloaded. -/
def overloaded (s : LoadSample) : Option UInt64 := do
  let limit ← mul s.onlineCount LoadSample.overloadFactor
  (← members s.online.toWord).foldlM (fun w c => do
    if limit < (← s.counters[c]?).running then insert w c else some w) 0

theorem counters_eq {c : Nat} (h : c ∈ s.online) : s.counters[c]? = some (s.cpu c) := by
  rw [LoadSample.cpu, dif_pos h, Vector.getElem?_eq_getElem (CpuMask.lt_of_mem h)]

/-- Elements that are put at places of a vector one after the other. -/
theorem foldlM_put {α : Type} {n : Nat} {l : List Nat} (h : ∀ i ∈ l, i < n) (f : Nat → α)
    (v : Vector α n) :
    l.foldlM (fun v i => put v i (f i)) v =
      some (Vector.ofFn fun i : Fin n => if i.val ∈ l then f i else v[i]) := by
  induction l generalizing v with
  | nil =>
    rw [List.foldlM_nil]
    simp
  | cons j l ih =>
    obtain ⟨hj, hl⟩ := List.forall_mem_cons.1 h
    rw [List.foldlM_cons, put_eq hj]
    show l.foldlM _ (v.set j (f j)) = _
    rw [ih hl, Option.some_inj]
    congr 1
    funext i
    rw [Fin.getElem_fin, Vector.getElem_set]
    by_cases hij : i.val = j <;> grind

theorem collect_eq (k : Kernel) : collect k = some (.collect k) := by
  have hput := foldlM_put (fun c hc => CpuMask.lt_of_mem (CpuMask.mem_toList.1 hc)) k.load
    (.replicate maxCpus {}) (l := k.online.toList)
  unfold collect
  rw [members_toWord, Option.bind_eq_bind, Option.bind_some, hput]
  show some _ = _
  rw [Option.some_inj, LoadSample.collect]
  congr 2
  funext c
  simp [CpuMask.mem_toList]

theorem loadOf_eq (s : LoadSample) (c : Nat) : loadOf s c = some (s.cpu c) := by
  unfold loadOf
  rw [test_toWord]
  show (if s.online.contains c then s.counters[c]? else some {}) = _
  split
  · rename_i hc
    exact counters_eq hc
  · rename_i hc
    rw [LoadSample.cpu_of_not_mem hc]

/-- A sum that fits into a word at its end fits into it all the way: it only grows. -/
theorem totalRunning_eq (h : s.sumOf CpuLoad.running < UInt64.size) :
    totalRunning s = some s.totalRunning := by
  have key : ∀ (l : List Nat) (n : Nat), (∀ c ∈ l, c ∈ s.online) →
      n + l.foldr (fun c n => (s.cpu c).running.toNat + n) 0 < UInt64.size →
      l.foldlM (fun n c => do add n (← s.counters[c]?).running) (UInt64.ofNat n) =
        some (.ofNat (n + l.foldr (fun c n => (s.cpu c).running.toNat + n) 0)) := by
    intro l
    induction l with
    | nil => exact fun n _ _ => rfl
    | cons c l ih =>
      intro n hl hn
      obtain ⟨hc, hl⟩ := List.forall_mem_cons.1 hl
      rw [List.foldr_cons, ← Nat.add_assoc] at hn ⊢
      have hstep := add_ofNat n (s.cpu c).running.toNat (by omega)
      rw [UInt64.ofNat_toNat] at hstep
      rw [List.foldlM_cons, counters_eq hc]
      show (add (.ofNat n) (s.cpu c).running).bind _ = _
      rw [hstep]
      exact ih _ hl hn
  unfold totalRunning
  rw [members_toWord]
  have hall := key s.online.toList 0 (fun c hc => CpuMask.mem_toList.1 hc)
    (by rwa [Nat.zero_add])
  rwa [Nat.zero_add] at hall

theorem totalSwitches_eq (s : LoadSample) : totalSwitches s = some s.totalSwitches := by
  have key : ∀ (l : List Nat) (n : Nat), l.foldl (fun n c => n + (s.cpu c).switches)
      (UInt64.ofNat n) = .ofNat (n + l.foldr (fun c n => (s.cpu c).switches.toNat + n) 0) := by
    intro l
    induction l with
    | nil => exact fun n => rfl
    | cons c l ih =>
      intro n
      have hstep : UInt64.ofNat n + (s.cpu c).switches =
          .ofNat (n + (s.cpu c).switches.toNat) := by
        rw [UInt64.ofNat_add, UInt64.ofNat_toNat]
      rw [List.foldl_cons, hstep, ih, List.foldr_cons, Nat.add_assoc]
  unfold totalSwitches
  rw [members_toWord]
  show s.online.toList.foldlM _ 0 = _
  rw [foldlM_eq (g := fun n c => n + (s.cpu c).switches), LoadSample.totalSwitches,
    LoadSample.sumOf]
  · exact congrArg some ((key _ 0).trans (by rw [Nat.zero_add]))
  · intro n c hc
    rw [counters_eq (CpuMask.mem_toList.1 hc)]
    rfl

theorem average_eq (h : s.sumOf CpuLoad.running < UInt64.size) :
    average s = some s.average := by
  unfold average LoadSample.average
  split
  · rfl
  · rename_i hn
    rw [totalRunning_eq h]
    exact div_eq hn

theorem limit_eq (s : LoadSample) :
    mul s.onlineCount LoadSample.overloadFactor = some s.overloadLimit := by
  refine mul_eq ?_
  rw [LoadSample.toNat_onlineCount]
  exact Nat.lt_of_le_of_lt (Nat.mul_le_mul_right _ (CpuMask.card_le _)) (by decide)

theorem overloaded_eq (s : LoadSample) : overloaded s = some s.overloaded.toWord := by
  have key : ∀ (l : List Nat) (m : CpuMask), (∀ c ∈ l, c ∈ s.online) →
      l.foldlM (fun w c => do
        if s.overloadLimit < (← s.counters[c]?).running then insert w c else some w) m.toWord =
      some ((l.filter fun c => decide (s.overloadLimit < (s.cpu c).running)).foldl
        CpuMask.insert m).toWord := by
    intro l
    induction l with
    | nil => exact fun m _ => rfl
    | cons c l ih =>
      intro m hl
      obtain ⟨hc, hl⟩ := List.forall_mem_cons.1 hl
      rw [List.foldlM_cons, counters_eq hc, List.filter_cons]
      show (if s.overloadLimit < (s.cpu c).running then insert m.toWord c
        else some m.toWord).bind _ = _
      split
      · rename_i hover
        rw [insert_toWord, if_pos (decide_eq_true hover), List.foldl_cons]
        exact ih _ hl
      · rename_i hover
        rw [if_neg (by simpa using hover)]
        exact ih _ hl
  unfold overloaded
  rw [limit_eq, members_toWord]
  exact key s.online.toList .empty fun c hc => CpuMask.mem_toList.1 hc

end Samples

/-! ### Intervals and thresholds -/

section Pacing

/-- An interval in nanoseconds; a negative number of milliseconds counts as none. -/
def intervalNanos (ms : Int32) : Option UInt64 :=
  mul (.ofNat ms.toInt.toNat) (.ofNat nanosPerMilli)

/-- Whether a pass may start; the interval is worked out in any case. -/
def admits (g : Gate) (ms : Int32) (now : UInt64) : Option Bool := do
  let interval ← intervalNanos ms
  match g.last with
  | none => some true
  | some last => some (decide (interval ≤ satSub now last))

/-- The starting values for a number of online CPUs; the last of the table are looked up in
any case. -/
def sizing (online : UInt64) : Option Sizing := do
  let last ← sub (.ofNat Sizing.tiers.length) 1
  let small ← Sizing.tiers[last.toNat]?
  some ((Sizing.tiers.find? fun tier => tier.minCpus ≤ online).getD small)

/-- The threshold after a pass. -/
def adapt (current : Int32) (load online : UInt64) : Option Int32 :=
  clamp Threshold.lower Threshold.upper <|
    if satMul online Threshold.highLoadFactor < load then
      min (satAdd32 current Threshold.step) Threshold.upper
    else if load < online then max (satSub32 current Threshold.step) Threshold.lower
    else current

/-- The product fits into a word for every interval that there is. -/
theorem intervalNanos_eq (ms : Int32) : intervalNanos ms = some (Gate.intervalNanos ms) := by
  have hlt := ms.toInt_lt
  unfold intervalNanos Gate.intervalNanos
  rw [mul_eq, UInt64.ofNat_mul]
  rw [UInt64.toNat_ofNat_of_lt', UInt64.toNat_ofNat_of_lt']
  · show ms.toInt.toNat * 1000000 < 2 ^ 64
    omega
  · decide
  · show ms.toInt.toNat < 2 ^ 64
    omega

theorem admits_eq (g : Gate) (ms : Int32) (now : UInt64) :
    admits g ms now = some (g.admits ms now) := by
  unfold admits Gate.admits
  rw [intervalNanos_eq]
  cases g.last <;> rfl

theorem sizing_eq (online : UInt64) : sizing online = some (Sizing.forOnline online) := rfl

theorem adapt_eq (current : Int32) (load online : UInt64) :
    adapt current load online = some (Threshold.adapt current load online) := by
  have hle : Threshold.lower ≤ Threshold.upper := by decide
  unfold adapt clamp
  rw [if_pos hle]
  rfl

end Pacing

end Guarded
end CpuSteward
