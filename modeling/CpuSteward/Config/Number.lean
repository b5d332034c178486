import CpuSteward.Text.IntLiteral

/-!
# Numbers in a configuration

An integer is decimal, with an optional sign and no leading zero, or follows `0x`,
`0o` or `0b`.  A floating-point number has a fraction, an exponent, or both.
Single underscores may stand between digits.  An integer that does not fit a
signed 64-bit word is an error, and so is a positive floating-point number that
rounds to infinity.

## Main definitions

* `Number.integer?`: the value of an integer.
* `Number.isFloat`: whether a text is a floating-point number.
-/

namespace CpuSteward.Config.Number

/-- Digits, with single underscores between them. -/
def isRun (p : Char → Bool) : List Char → Bool
  | [] => false
  | c :: '_' :: s => p c && isRun p s
  | c :: s => p c && (s.isEmpty || isRun p s)

/-- The value of digits, underscores aside. -/
def runValue? (radix : Nat) (s : List Char) : Option Nat :=
  if isRun (fun c => (IntLiteral.digit? radix c).isSome) s then
    IntLiteral.magnitude? radix (s.filter (· ≠ '_'))
  else none

/-- The value of decimal digits without a leading zero. -/
def decimalValue? (s : List Char) : Option Nat :=
  if s.head? = some '0' ∧ s.length ≠ 1 then none else runValue? 10 s

/-- The integer itself if a signed 64-bit word has it. -/
def word? (n : Int) : Option Int :=
  if Int64.minValue.toInt ≤ n ∧ n ≤ Int64.maxValue.toInt then some n else none

/-- The value of an integer. -/
def integer? : List Char → Option Int
  | '0' :: 'x' :: s => (runValue? 16 s).bind fun n => word? n
  | '0' :: 'o' :: s => (runValue? 8 s).bind fun n => word? n
  | '0' :: 'b' :: s => (runValue? 2 s).bind fun n => word? n
  | s =>
    let (negative, digits) := IntLiteral.splitSign s
    (decimalValue? digits).bind fun n => word? (if negative then -(n : Int) else n)

/-- A text up to the first character of a kind, and what follows that character. -/
def cutAt (p : Char → Bool) (s : List Char) : List Char × Option (List Char) :=
  match s.dropWhile fun c => !p c with
  | [] => (s, none)
  | _ :: rest => (s.takeWhile fun c => !p c, some rest)

/-- The least number that rounds to infinity as a double. -/
def infinite : Nat := (1 <<< 1024) - (1 <<< 970)

/-- A power of ten. -/
def tenTo (e : Nat) : Nat := Nat.pow 10 e

/-- Whether `m · 10 ^ e` rounds to infinity as a double. -/
def overflows (m : Nat) (e : Int) : Bool :=
  let digits := (Nat.toDigits 10 m).length
  if m = 0 ∨ digits + e < 309 then false
  else if 309 < digits + e then true
  else if 0 ≤ e then decide (infinite ≤ m * tenTo e.toNat)
  else decide (infinite * tenTo (-e).toNat ≤ m)

/-- The value of an exponent; an absent one is zero. -/
def exponent? : Option (List Char) → Option Int
  | none => some 0
  | some s =>
    let (negative, digits) := IntLiteral.splitSign s
    (runValue? 10 digits).map fun n => if negative then -(n : Int) else n

/-- The digits of a fraction, underscores aside; an absent one has none. -/
def fraction? : Option (List Char) → Option (List Char)
  | none => some []
  | some s => if isRun Char.isDigit s then some (s.filter (· ≠ '_')) else none

/-- Whether a text is a floating-point number. -/
def isFloat (s : List Char) : Bool :=
  let (negative, unsigned) := IntLiteral.splitSign s
  if unsigned = "inf".toList ∨ unsigned = "nan".toList then true
  else
    let (mantissa, exponent) := cutAt (fun c => c = 'e' || c = 'E') unsigned
    let (whole, fraction) := cutAt (· = '.') mantissa
    if exponent.isNone && fraction.isNone then false
    else
      match decimalValue? whole, fraction? fraction, exponent? exponent with
      | some n, some ds, some e =>
        let m := n * tenTo ds.length + (IntLiteral.magnitude? 10 ds).getD 0
        negative || !overflows m (e - ds.length)
      | _, _, _ => false

end CpuSteward.Config.Number
