/-!
# Saturating words

Arithmetic on machine words that stops at the ends of their range instead of
wrapping.

## Main results

Each operation is the one on integers followed by a cut to the range of the
word: `toNat_satAdd`, `toNat_satSub`, `toNat_satMul`, `toInt_satAdd32`,
`toInt_satSub32`.
-/

namespace CpuSteward

/-- The unsigned word nearest to a natural number. -/
def nearestWord (n : Nat) : UInt64 := .ofNat (min n (UInt64.size - 1))

/-- The sum of two unsigned words, at most the greatest word. -/
def satAdd (a b : UInt64) : UInt64 := nearestWord (a.toNat + b.toNat)

/-- The difference of two unsigned words, at least 0. -/
def satSub (a b : UInt64) : UInt64 := if b ≤ a then a - b else 0

/-- The product of two unsigned words, at most the greatest word. -/
def satMul (a b : UInt64) : UInt64 := nearestWord (a.toNat * b.toNat)

/-- The sum of two signed words, cut to their range. -/
def satAdd32 (a b : Int32) : Int32 := .ofIntClamp (a.toInt + b.toInt)

/-- The difference of two signed words, cut to their range. -/
def satSub32 (a b : Int32) : Int32 := .ofIntClamp (a.toInt - b.toInt)

@[simp] theorem toNat_nearestWord (n : Nat) : (nearestWord n).toNat = min n 0xFFFFFFFFFFFFFFFF := by
  simp only [nearestWord, UInt64.toNat_ofNat', UInt64.size]
  omega

@[simp] theorem toNat_satAdd (a b : UInt64) :
    (satAdd a b).toNat = min (a.toNat + b.toNat) 0xFFFFFFFFFFFFFFFF := toNat_nearestWord _

@[simp] theorem toNat_satMul (a b : UInt64) :
    (satMul a b).toNat = min (a.toNat * b.toNat) 0xFFFFFFFFFFFFFFFF := toNat_nearestWord _

@[simp] theorem toNat_satSub (a b : UInt64) : (satSub a b).toNat = a.toNat - b.toNat := by
  unfold satSub
  split
  · rename_i h
    rw [UInt64.toNat_sub_of_le _ _ h]
  · rename_i h
    rw [UInt64.le_iff_toNat_le] at h
    simp
    omega

theorem toInt_min32 (a b : Int32) : (min a b).toInt = min a.toInt b.toInt := by
  show (if a ≤ b then a else b).toInt = _
  split <;> rename_i h <;> rw [Int32.le_iff_toInt_le] at h <;> omega

theorem toInt_max32 (a b : Int32) : (max a b).toInt = max a.toInt b.toInt := by
  show (if a ≤ b then b else a).toInt = _
  split <;> rename_i h <;> rw [Int32.le_iff_toInt_le] at h <;> omega

theorem toInt_ofIntClamp (n : Int) :
    (Int32.ofIntClamp n).toInt = max (-0x80000000) (min n 0x7FFFFFFF) := by
  unfold Int32.ofIntClamp
  split
  · rename_i h
    split
    · rename_i h'
      rw [Int32.toInt_ofIntLE]
      simp only [Int32.toInt_minValue, Int32.toInt_maxValue] at h h'
      omega
    · rename_i h'
      simp only [Int32.toInt_minValue, Int32.toInt_maxValue] at h h' ⊢
      omega
  · rename_i h
    simp only [Int32.toInt_minValue] at h ⊢
    omega

@[simp] theorem toInt_satAdd32 (a b : Int32) :
    (satAdd32 a b).toInt = max (-0x80000000) (min (a.toInt + b.toInt) 0x7FFFFFFF) :=
  toInt_ofIntClamp _

@[simp] theorem toInt_satSub32 (a b : Int32) :
    (satSub32 a b).toInt = max (-0x80000000) (min (a.toInt - b.toInt) 0x7FFFFFFF) :=
  toInt_ofIntClamp _

end CpuSteward
