/-!
# Decimal text

Numbers are written with the fewest decimal digits, a minus sign in front of a
negative one, and no other decoration.

## Main definitions

* `Decimal.ofNat`, `Decimal.ofInt`: the text of a number.
* `Decimal.ofWord`, `Decimal.ofInt32`: the same for machine words.
-/

namespace CpuSteward.Decimal

/-- The decimal digits of a natural number. -/
def ofNat (n : Nat) : String := String.ofList (Nat.toDigits 10 n)

/-- The decimal text of an integer. -/
def ofInt (n : Int) : String := if 0 ≤ n then ofNat n.toNat else "-" ++ ofNat (-n).toNat

/-- The decimal text of an unsigned word. -/
def ofWord (w : UInt64) : String := ofNat w.toNat

/-- The decimal text of a signed 32-bit word. -/
def ofInt32 (v : Int32) : String := ofInt v.toInt

/-- The characters of the text of an integer: its sign, then its digits. -/
theorem toList_ofInt (n : Int) :
    (ofInt n).toList = (if 0 ≤ n then [] else ['-']) ++ Nat.toDigits 10 n.natAbs := by
  unfold ofInt ofNat
  split
  · rename_i h
    have : n.toNat = n.natAbs := by omega
    simp [this]
  · rename_i h
    have : (-n).toNat = n.natAbs := by omega
    simp [this]

end CpuSteward.Decimal
