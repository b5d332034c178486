import CpuSteward.Text.Blank

/-!
# Integer literals

The text of a signed 32-bit integer as it is written to a tunable: blanks, one
optional sign, and digits in the base that their front announces.  `0x` or `0X`
announces hexadecimal digits, any other `0` that more characters follow announces
octal ones, and all else is decimal.

What arrives is a buffer of bytes.  It has to be shorter than `maxBytes`, it ends
at its first NUL, and up to there it has to be UTF-8.

## Main definitions

* `IntLiteral.splitSign`, `IntLiteral.splitRadix`, `IntLiteral.magnitude?`: the
  three parts of a literal.
* `IntLiteral.ofChars?`: the value of a text as an integer of any size.
* `IntLiteral.read?`: the value of a buffer.
-/

namespace CpuSteward.IntLiteral

/-- A buffer has to be shorter than this many bytes. -/
def maxBytes : Nat := 16

/-- Take one sign off; the first component tells whether it was a minus. -/
def splitSign : List Char → Bool × List Char
  | '-' :: s => (true, s)
  | '+' :: s => (false, s)
  | s => (false, s)

/-- Take the announcement of the base off. -/
def splitRadix : List Char → Nat × List Char
  | '0' :: 'x' :: s => (16, s)
  | '0' :: 'X' :: s => (16, s)
  | '0' :: c :: s => (8, c :: s)
  | s => (10, s)

/-- The value of a digit or an ASCII letter, `a` standing for ten in either case. -/
def digitValue? (c : Char) : Option Nat :=
  if '0' ≤ c ∧ c ≤ '9' then some (c.toNat - '0'.toNat)
  else if 'a' ≤ c ∧ c ≤ 'z' then some (c.toNat - 'a'.toNat + 10)
  else if 'A' ≤ c ∧ c ≤ 'Z' then some (c.toNat - 'A'.toNat + 10)
  else none

/-- The value of a digit of the given base. -/
def digit? (radix : Nat) (c : Char) : Option Nat := (digitValue? c).filter (· < radix)

/-- The value of a sequence of digits, the most significant one first. -/
def ofDigits (radix : Nat) (digits : List Nat) : Nat := digits.foldl (fun n d => n * radix + d) 0

/-- The value of a non-empty text of digits of the given base. -/
def magnitude? (radix : Nat) (s : List Char) : Option Nat :=
  if s.isEmpty then none else (s.mapM (digit? radix)).map (ofDigits radix)

/-- The value of a text, blanks at its ends aside. -/
def ofChars? (s : List Char) : Option Int :=
  let (negative, unsigned) := splitSign (Blank.trim s)
  let (radix, digits) := splitRadix unsigned
  (magnitude? radix digits).map fun n => if negative then -(n : Int) else n

/-- The signed word that has the given value, if one has. -/
def word? (n : Int) : Option Int32 :=
  if Int32.minValue.toInt ≤ n ∧ n ≤ Int32.maxValue.toInt then some (.ofInt n) else none

/-- The bytes of a buffer before its first NUL. -/
def upToNul (bytes : ByteArray) : ByteArray := (bytes.data.toList.takeWhile (· ≠ 0)).toByteArray

/-- The value of a buffer, if it holds an integer literal in the range of a
signed word. -/
def read? (bytes : ByteArray) : Option Int32 :=
  if bytes.size < maxBytes then do
    let text ← (upToNul bytes).utf8Decode?
    let value ← ofChars? text.toList
    word? value
  else none

/-! ### Equations -/

@[simp] theorem splitSign_minus (s : List Char) : splitSign ('-' :: s) = (true, s) := rfl

@[simp] theorem splitSign_plus (s : List Char) : splitSign ('+' :: s) = (false, s) := rfl

@[simp] theorem magnitude?_nil (radix : Nat) : magnitude? radix [] = none := rfl

@[simp] theorem ofDigits_append_singleton (radix d : Nat) (ds : List Nat) :
    ofDigits radix (ds ++ [d]) = ofDigits radix ds * radix + d := by
  simp [ofDigits]

/-- The value that is read back from a signed word is its own. -/
theorem toInt_of_word? {n : Int} {v : Int32} (h : word? n = some v) : v.toInt = n := by
  unfold word? at h
  split at h
  · rename_i hn
    rw [Int32.toInt_minValue, Int32.toInt_maxValue] at hn
    cases h
    exact Int32.toInt_ofInt_of_le hn.1 (by omega)
  · cases h

end CpuSteward.IntLiteral
