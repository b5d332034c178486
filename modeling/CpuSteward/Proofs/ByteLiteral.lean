import CpuSteward.Proofs.GuardedText
import Mathlib.Data.List.DropRight

/-!
# Integer literals in bytes

An integer literal can be read without a look at characters: the blanks are six bytes, and
digits, signs and announcements of a base are bytes as well.  Such a reader knows nothing of
UTF-8, and every byte from 128 on is malformed to it.

The reader of texts agrees with it on all buffers of ASCII.  Beyond these the two differ,
because there are blanks beyond ASCII: a literal with such a blank at one of its ends is a
literal as a text, and none in bytes.

## Main definitions

* `ByteLiteral.isSpace`, `ByteLiteral.strip` — the blank bytes, and the bytes without them at
  both ends.
* `ByteLiteral.announced`, `ByteLiteral.scan`, `ByteLiteral.signed?` — the base, the digits, and
  the whole number.
* `ByteLiteral.read?` — the value of a buffer.

## Main results

* `ByteLiteral.signed?_map` — on ASCII the number is the one of the text.
* `ByteLiteral.read?_of_ascii` — on ASCII the two readers agree.
* `ByteLiteral.lt_of_read?` — the bytes that are read are ASCII.
* `ByteLiteral.agrees_iff` — **where the two readers agree.**
-/

namespace CpuSteward
namespace ByteLiteral

variable {c : Char} {s : List Char} {b : UInt8} {bs : List UInt8} {base n m : Nat} {z : Int}
  {v : Int32} {bytes : ByteArray}

/-! ### The reader of bytes -/

/-- The blank bytes: the space, and those from the tab to the carriage return. -/
def isSpace (b : UInt8) : Bool := b == 0x20 || (0x09 ≤ b && b ≤ 0x0D)

/-- The bytes without blanks at both ends. -/
def strip (bs : List UInt8) : List UInt8 := (bs.dropWhile isSpace).rdropWhile isSpace

/-- A byte with the bit set that tells small letters from capitals. -/
def lower (b : UInt8) : UInt8 := b ||| 0x20

/-- The value of a digit or of a letter up to `f`. -/
def digit? (b : UInt8) : Option Nat :=
  if 0x30 ≤ b ∧ b ≤ 0x39 then some (b.toNat - 0x30)
  else if 0x61 ≤ lower b ∧ lower b ≤ 0x66 then some ((lower b).toNat - 0x61 + 10)
  else none

/-- The value of digits, with what the digits in front of them stand for. -/
def scan (base : Nat) : Nat → List UInt8 → Option Nat
  | n, [] => some n
  | n, b :: bs => ((digit? b).filter (· < base)).bind fun d => scan base (n * base + d) bs

/-- The base that the front of a number announces. -/
def announced (bs : List UInt8) : Nat :=
  if bs.head? = some 0x30 then if bs[1]?.map lower = some 0x78 then 16 else 8 else 10

/-- The value of a number without its sign.  A leading zero is a digit; only the announcement
of base 16 is skipped. -/
def unsigned? (bs : List UInt8) : Option Nat :=
  let digits := if announced bs = 16 then bs.drop 2 else bs
  if digits = [] then none else scan (announced bs) 0 digits

/-- The value of a number with at most one sign. -/
def signed? (bs : List UInt8) : Option Int :=
  if bs.head? = some 0x2D then (unsigned? bs.tail).map fun n : Nat => -(n : Int)
  else (unsigned? (if bs.head? = some 0x2B then bs.tail else bs)).map fun n : Nat => (n : Int)

/-- The bytes of a buffer in front of its first NUL. -/
def content (bytes : ByteArray) : List UInt8 := bytes.data.toList.takeWhile (· ≠ 0)

/-- The value of a buffer, if it is short enough and the value a signed word. -/
def read? (bytes : ByteArray) : Option Int32 :=
  if 16 ≤ bytes.size then none
  else (signed? (strip (content bytes))).bind fun z =>
    if -2 ^ 31 ≤ z ∧ z ≤ 2 ^ 31 - 1 then some (.ofInt z) else none

/-! ### Only bytes of ASCII are taken -/

theorem lt_of_isSpace (h : isSpace b = true) : b < 128 := by
  simp only [isSpace, Bool.or_eq_true, beq_iff_eq, Bool.and_eq_true, decide_eq_true_eq] at h
  rcases h with rfl | ⟨-, h⟩
  · decide
  · exact UInt8.lt_of_le_of_lt h (by decide)

theorem le_lower (b : UInt8) : b ≤ lower b := by
  rw [UInt8.le_iff_toNat_le, lower, UInt8.toNat_or]
  exact Nat.left_le_or

theorem lt_of_digit? {d : Nat} (h : digit? b = some d) : b < 128 := by
  unfold digit? at h
  split at h
  · rename_i hdigit
    exact UInt8.lt_of_le_of_lt hdigit.2 (by decide)
  split at h
  · rename_i hletter
    exact UInt8.lt_of_le_of_lt (UInt8.le_trans (le_lower b) hletter.2) (by decide)
  · cases h

theorem lt_of_scan (h : scan base n bs = some m) : ∀ b ∈ bs, b < 128 := by
  induction bs generalizing n with
  | nil => exact List.forall_mem_nil _
  | cons b bs ih =>
    obtain ⟨d, hd, hrest⟩ := Option.bind_eq_some_iff.1 h
    exact List.forall_mem_cons.2 ⟨lt_of_digit? (Option.filter_eq_some_iff.1 hd).1, ih hrest⟩

/-- The announcement of base 16 is a zero and an `x` in either case. -/
theorem announced_eq_sixteen_iff :
    announced bs = 16 ↔ ∃ x rest, bs = 0x30 :: x :: rest ∧ lower x = 0x78 := by
  unfold announced
  match bs with
  | [] => simp
  | [b] => by_cases hb : b = 0x30 <;> simp [hb]
  | b :: x :: rest => by_cases hb : b = 0x30 <;> by_cases hx : lower x = 0x78 <;> simp [hb, hx]

theorem lt_of_unsigned? (h : unsigned? bs = some n) : ∀ b ∈ bs, b < 128 := by
  have hscan : scan (announced bs) 0 (if announced bs = 16 then bs.drop 2 else bs) = some n := by
    unfold unsigned? at h
    exact (Option.ite_none_left_eq_some.1 h).2
  have hdigits := lt_of_scan hscan
  by_cases hbase : announced bs = 16
  · obtain ⟨x, rest, rfl, hx⟩ := announced_eq_sixteen_iff.1 hbase
    rw [if_pos hbase] at hdigits
    have hx128 : x < 128 := UInt8.lt_of_le_of_lt (hx ▸ le_lower x) (by decide)
    exact List.forall_mem_cons.2 ⟨by decide, List.forall_mem_cons.2 ⟨hx128, hdigits⟩⟩
  · rwa [if_neg hbase] at hdigits

theorem lt_of_tail {sign : UInt8} (hsign : bs.head? = some sign) (hlt : sign < 128)
    (h : ∀ b ∈ bs.tail, b < 128) : ∀ b ∈ bs, b < 128 := by
  obtain ⟨rest, rfl⟩ := List.head?_eq_some_iff.1 hsign
  exact List.forall_mem_cons.2 ⟨hlt, h⟩

theorem lt_of_signed? (h : signed? bs = some z) : ∀ b ∈ bs, b < 128 := by
  unfold signed? at h
  split at h
  · rename_i hminus
    obtain ⟨n, hn, -⟩ := Option.map_eq_some_iff.1 h
    exact lt_of_tail hminus (by decide) (lt_of_unsigned? hn)
  · obtain ⟨n, hn, -⟩ := Option.map_eq_some_iff.1 h
    split at hn
    · rename_i hplus
      exact lt_of_tail hplus (by decide) (lt_of_unsigned? hn)
    · exact lt_of_unsigned? hn

/-- What is dropped at the front has the property. -/
theorem of_mem_or_mem_dropWhile {p : UInt8 → Bool} (h : b ∈ bs) :
    p b = true ∨ b ∈ bs.dropWhile p := by
  rw [← List.takeWhile_append_dropWhile (p := p) (l := bs), List.mem_append] at h
  exact h.imp_left List.mem_takeWhile_imp

theorem isSpace_or_mem_strip (h : b ∈ bs) : isSpace b = true ∨ b ∈ strip bs := by
  rcases of_mem_or_mem_dropWhile (p := isSpace) h with hfront | hrest
  · exact .inl hfront
  · rcases of_mem_or_mem_dropWhile (p := isSpace) (List.mem_reverse.2 hrest) with hback | hmid
    · exact .inl hback
    · exact .inr (List.mem_reverse.2 hmid)

/-- The bytes that are read are ASCII. -/
theorem lt_of_read? (h : read? bytes = some v) : ∀ b ∈ content bytes, b < 128 := by
  intro b hb
  unfold read? at h
  split at h
  · cases h
  · obtain ⟨z, hz, -⟩ := Option.bind_eq_some_iff.1 h
    rcases isSpace_or_mem_strip hb with hspace | hmem
    · exact lt_of_isSpace hspace
    · exact lt_of_signed? hz b hmem

/-! ### Texts of ASCII -/

/-- What is true of the first 128 characters is true of each character of ASCII. -/
theorem of_forall_lt {p : Char → Prop} (hp : ∀ n < 128, p (Char.ofNat n)) (hc : c.toNat < 128) :
    p c := by
  have h := hp c.toNat hc
  rwa [Char.ofNat_toNat] at h

theorem toNat_toUInt8 (hc : c.toNat < 128) : c.toUInt8.toNat = c.toNat := by
  show c.toNat % 256 = c.toNat
  exact Nat.mod_eq_of_lt (by omega)

theorem toUInt8_inj {d : Char} (hc : c.toNat < 128) (hd : d.toNat < 128) :
    c.toUInt8 = d.toUInt8 ↔ c = d := by
  rw [← UInt8.toNat_inj, toNat_toUInt8 hc, toNat_toUInt8 hd, Char.toNat_inj]

theorem isSpace_toUInt8 (hc : c.toNat < 128) : isSpace c.toUInt8 = Blank.isBlank c :=
  of_forall_lt (p := fun c => isSpace c.toUInt8 = Blank.isBlank c) (by decide) hc

theorem digit?_toUInt8 (hb : base ≤ 16) (hc : c.toNat < 128) :
    (digit? c.toUInt8).filter (· < base) = IntLiteral.digit? base c := by
  have hall : digit? c.toUInt8 = (IntLiteral.digitValue? c).filter (· < 16) :=
    of_forall_lt (p := fun c => digit? c.toUInt8 = (IntLiteral.digitValue? c).filter (· < 16))
      (by decide) hc
  have hboth : (fun d => decide (d < 16) && decide (d < base)) = fun d => decide (d < base) := by
    funext d
    by_cases hd : d < base
    · simp [hd, Nat.lt_of_lt_of_le hd hb]
    · simp [hd]
  rw [hall, Option.filter_filter, hboth, IntLiteral.digit?]

/-- Digits are taken from bytes as they are from characters. -/
theorem scan_map (hb : base ≤ 16) (hs : ∀ c ∈ s, c.toNat < 128) (n : Nat) :
    scan base n (s.map Char.toUInt8) =
      (s.mapM (IntLiteral.digit? base)).map fun ds => ds.foldl (fun n d => n * base + d) n := by
  induction s generalizing n with
  | nil => rfl
  | cons c s ih =>
    obtain ⟨hc, hs⟩ := List.forall_mem_cons.1 hs
    rw [List.map_cons, scan, digit?_toUInt8 hb hc, List.mapM_cons]
    cases IntLiteral.digit? base c with
    | none => rfl
    | some d =>
      rw [Option.bind_some, ih hs]
      cases s.mapM (IntLiteral.digit? base) <;> rfl

theorem scan_map_eq_magnitude? (hb : base ≤ 16) (hs : ∀ c ∈ s, c.toNat < 128) :
    (if s.map Char.toUInt8 = [] then none else scan base 0 (s.map Char.toUInt8)) =
      IntLiteral.magnitude? base s := by
  cases s with
  | nil => rfl
  | cons c s =>
    rw [if_neg (by simp), scan_map hb hs, IntLiteral.magnitude?, if_neg (by simp)]
    rfl

/-- A zero in front does not change the value of digits. -/
theorem scan_zero (hb : 0 < base) (bs : List UInt8) :
    scan base 0 (0x30 :: bs) = scan base 0 bs := by
  have hzero : (digit? 0x30).filter (· < base) = some 0 := by
    rw [show digit? 0x30 = some 0 from rfl, Option.filter_some, if_pos (decide_eq_true hb)]
  rw [scan, hzero, Option.bind_some, Nat.zero_mul]

theorem lower_toUInt8_iff (hc : c.toNat < 128) : lower c.toUInt8 = 0x78 ↔ c = 'x' ∨ c = 'X' :=
  of_forall_lt (p := fun c => lower c.toUInt8 = 0x78 ↔ c = 'x' ∨ c = 'X') (by decide) hc

theorem head_map_eq_iff {d : Char} (hd : d.toNat < 128) (hs : ∀ c ∈ s, c.toNat < 128) :
    (s.map Char.toUInt8).head? = some d.toUInt8 ↔ s.head? = some d := by
  cases s with
  | nil => simp
  | cons c s => simp [toUInt8_inj (hs c List.mem_cons_self) hd]

/-- A number without its sign is the one of the text. -/
theorem unsigned?_map (hs : ∀ c ∈ s, c.toNat < 128) :
    unsigned? (s.map Char.toUInt8) = IntLiteral.unsigned? s := by
  unfold unsigned? IntLiteral.unsigned?
  by_cases h0 : s.head? = some '0'
  · obtain ⟨rest, rfl⟩ := List.head?_eq_some_iff.1 h0
    cases rest with
    | nil => rfl
    | cons x rest =>
      obtain ⟨-, hx, hrest⟩ : _ ∧ x.toNat < 128 ∧ ∀ c ∈ rest, c.toNat < 128 := by
        simpa only [List.forall_mem_cons] using hs
      by_cases hhex : x = 'x' ∨ x = 'X'
      · -- base 16: the announcement is skipped on both sides
        have hsplit : IntLiteral.splitRadix ('0' :: x :: rest) = (16, rest) := by
          rcases hhex with rfl | rfl <;> rfl
        have hbase : announced (('0' :: x :: rest).map Char.toUInt8) = 16 :=
          announced_eq_sixteen_iff.2 ⟨_, _, rfl, (lower_toUInt8_iff hx).2 hhex⟩
        rw [hsplit, hbase, if_pos rfl]
        exact scan_map_eq_magnitude? (by decide) hrest
      · -- base 8: the zero is a digit of the bytes and none of the text
        have hsplit : IntLiteral.splitRadix ('0' :: x :: rest) = (8, x :: rest) :=
          IntLiteral.splitRadix_octal (fun h => hhex (.inl h)) fun h => hhex (.inr h)
        have hbase : announced (('0' :: x :: rest).map Char.toUInt8) = 8 := by
          have hlower : ¬lower x.toUInt8 = 0x78 := mt (lower_toUInt8_iff hx).1 hhex
          have hzero : '0'.toUInt8 = 0x30 := rfl
          simp [announced, hlower, hzero]
        have hdigits := scan_map_eq_magnitude? (by decide : 8 ≤ 16)
          (List.forall_mem_cons.2 ⟨hx, hrest⟩)
        rw [hsplit, hbase, if_neg (by decide : ¬8 = 16), if_neg (by simp), ← hdigits,
          if_neg (by simp)]
        exact scan_zero (by decide) _
  · have hbase : announced (s.map Char.toUInt8) = 10 :=
      if_neg (mt (head_map_eq_iff (by decide) hs).1 h0)
    have hsplit : IntLiteral.splitRadix s = (10, s) := by
      cases s with
      | nil => rfl
      | cons c s => exact IntLiteral.splitRadix_decimal (by simpa using h0)
    rw [hbase, hsplit, if_neg (by decide : ¬10 = 16)]
    exact scan_map_eq_magnitude? (by decide) hs

/-- The number in bytes of ASCII is the one of the text. -/
theorem signed?_map (hs : ∀ c ∈ s, c.toNat < 128) :
    signed? (s.map Char.toUInt8) = IntLiteral.signed? s := by
  have hminus : (s.map Char.toUInt8).head? = some 0x2D ↔ s.head? = some '-' :=
    head_map_eq_iff (d := '-') (by decide) hs
  have hplus : (s.map Char.toUInt8).head? = some 0x2B ↔ s.head? = some '+' :=
    head_map_eq_iff (d := '+') (by decide) hs
  have htail : unsigned? (s.map Char.toUInt8).tail = IntLiteral.unsigned? s.tail := by
    rw [← List.map_tail]
    exact unsigned?_map fun c hc => hs c (List.mem_of_mem_tail hc)
  unfold signed? IntLiteral.signed?
  by_cases h1 : s.head? = some '-'
  · rw [if_pos (hminus.2 h1), htail]
    obtain ⟨rest, rfl⟩ := List.head?_eq_some_iff.1 h1
    rfl
  rw [if_neg (mt hminus.1 h1)]
  by_cases h2 : s.head? = some '+'
  · rw [if_pos (hplus.2 h2), htail]
    obtain ⟨rest, rfl⟩ := List.head?_eq_some_iff.1 h2
    rfl
  · have hsplit : IntLiteral.splitSign s = (false, s) := by
      unfold IntLiteral.splitSign
      split <;> simp_all
    rw [if_neg (mt hplus.1 h2), unsigned?_map hs, hsplit]
    rfl

theorem dropWhile_map_toUInt8 (hs : ∀ c ∈ s, c.toNat < 128) :
    (s.map Char.toUInt8).dropWhile isSpace = (s.dropWhile Blank.isBlank).map Char.toUInt8 := by
  induction s with
  | nil => rfl
  | cons c s ih =>
    obtain ⟨hc, hs⟩ := List.forall_mem_cons.1 hs
    rw [List.map_cons, List.dropWhile_cons, List.dropWhile_cons, isSpace_toUInt8 hc, ih hs]
    split <;> rfl

/-- The blanks at the ends of a text of ASCII are bytes, one each. -/
theorem strip_map (hs : ∀ c ∈ s, c.toNat < 128) :
    strip (s.map Char.toUInt8) = (Blank.trim s).map Char.toUInt8 := by
  have hstart := dropWhile_map_toUInt8 hs
  have hrest : ∀ c ∈ (s.dropWhile Blank.isBlank).reverse, c.toNat < 128 := fun c hc =>
    hs c ((List.dropWhile_sublist _).subset (List.mem_reverse.1 hc))
  rw [strip, List.rdropWhile, hstart, ← List.map_reverse, dropWhile_map_toUInt8 hrest,
    ← List.map_reverse]
  rfl

/-! ### Buffers of ASCII -/

theorem utf8EncodeChar_of_lt (hc : c.toNat < 128) : String.utf8EncodeChar c = [c.toUInt8] :=
  of_forall_lt (p := fun c => String.utf8EncodeChar c = [c.toUInt8]) (by decide) hc

theorem flatMap_utf8EncodeChar (hs : ∀ c ∈ s, c.toNat < 128) :
    s.flatMap String.utf8EncodeChar = s.map Char.toUInt8 := by
  induction s with
  | nil => rfl
  | cons c s ih =>
    obtain ⟨hc, hs⟩ := List.forall_mem_cons.1 hs
    rw [List.flatMap_cons, utf8EncodeChar_of_lt hc, ih hs]
    rfl

theorem toNat_ofNat_of_lt (hb : b < 128) : (Char.ofNat b.toNat).toNat = b.toNat := by
  have hall : ∀ n < 128, (Char.ofNat n).toNat = n := by decide
  exact hall b.toNat (UInt8.lt_iff_toNat_lt.1 hb)

/-- Bytes of ASCII are the codes of characters. -/
theorem exists_map_eq (h : ∀ b ∈ bs, b < 128) :
    ∃ s : List Char, (∀ c ∈ s, c.toNat < 128) ∧ s.map Char.toUInt8 = bs := by
  have hlt : ∀ b ∈ bs, (Char.ofNat b.toNat).toNat < 128 := fun b hb => by
    rw [toNat_ofNat_of_lt (h b hb)]
    exact UInt8.lt_iff_toNat_lt.1 (h b hb)
  refine ⟨bs.map fun b => Char.ofNat b.toNat, by simpa using hlt, ?_⟩
  have hcode : ∀ b ∈ bs, (Char.ofNat b.toNat).toUInt8 = b := fun b hb => by
    rw [← UInt8.toNat_inj, toNat_toUInt8 (hlt b hb), toNat_ofNat_of_lt (h b hb)]
  rw [List.map_map]
  exact (List.map_congr_left hcode).trans (List.map_id bs)

/-- **On ASCII the two readers agree.** -/
theorem read?_of_ascii (h : ∀ b ∈ content bytes, b < 128) :
    IntLiteral.read? bytes = read? bytes := by
  obtain ⟨s, hs, hcontent⟩ := exists_map_eq h
  have hdecode : (IntLiteral.upToNul bytes).utf8Decode? = some s.toArray := by
    have hbytes : IntLiteral.upToNul bytes = s.utf8Encode := by
      rw [List.utf8Encode.eq_1, flatMap_utf8EncodeChar hs, hcontent]
      rfl
    rw [hbytes]
    exact List.utf8Decode?_utf8Encode
  have hvalue : IntLiteral.ofChars? s = signed? (strip (content bytes)) := by
    rw [← hcontent, strip_map hs, signed?_map fun c hc => ?_, IntLiteral.ofChars?_eq_signed?]
    obtain ⟨front, back, htext, -⟩ := Blank.exists_trim s
    exact hs c (htext ▸ by simp [hc])
  unfold IntLiteral.read? read? IntLiteral.maxBytes
  by_cases hsize : bytes.size < 16
  · rw [if_pos hsize, if_neg (Nat.not_le.2 hsize), hdecode]
    show (IntLiteral.ofChars? s.toArray.toList).bind IntLiteral.word? = _
    rw [hvalue]
    rfl
  · rw [if_neg hsize, if_pos (Nat.not_lt.1 hsize)]

/-! ### Buffers beyond ASCII -/

theorem lt_of_flatMap_lt (h : ∀ b ∈ s.flatMap String.utf8EncodeChar, b < 128) :
    ∀ c ∈ s, c.toNat < 128 := by
  intro c hc
  by_cases hsize : c.utf8Size = 1
  · have hle := UInt32.le_iff_toNat_le.1 (Char.utf8Size_eq_one_iff.1 hsize)
    exact Nat.lt_succ_of_le hle
  · obtain ⟨b, hb⟩ := List.exists_mem_of_length_pos (l := String.utf8EncodeChar c)
      (by rw [String.length_utf8EncodeChar]; exact c.utf8Size_pos)
    have hlt := UInt8.lt_iff_toNat_lt.1 (h b (List.mem_flatMap.2 ⟨c, hc, hb⟩))
    exact absurd hlt (Nat.not_lt.2 (Guarded.le_toNat_of_mem hsize hb))

/-- The bytes of a text are a number exactly if the text is one. -/
theorem signed?_flatMap_eq_some_iff :
    signed? (s.flatMap String.utf8EncodeChar) = some z ↔ IntLiteral.Signed s z := by
  have hascii : ∀ c ∈ IntLiteral.characters, c.toNat < 128 :=
    IntLiteral.forall_mem_of_all (by decide)
  constructor
  · intro h
    have hs := lt_of_flatMap_lt (lt_of_signed? h)
    rwa [flatMap_utf8EncodeChar hs, signed?_map hs, IntLiteral.signed?_eq_some_iff] at h
  · intro h
    have hs : ∀ c ∈ s, c.toNat < 128 := fun c hc => hascii c (h.mem_characters c hc)
    rwa [flatMap_utf8EncodeChar hs, signed?_map hs, IntLiteral.signed?_eq_some_iff]

/-! ### The main theorem -/

/-- **The two readers agree up to the blanks beyond ASCII.**  They agree on a buffer if and only if
it is ASCII up to its first NUL or no literal as a text.  What the reader of bytes takes, the
reader of texts takes for the same value; and what that reader takes is, in every case, a number
of the reader of bytes between blanks. -/
theorem agrees_iff (bytes : ByteArray) :
    (IntLiteral.read? bytes = read? bytes ↔
      (∀ b ∈ content bytes, b < 128) ∨ IntLiteral.read? bytes = none) ∧
    (∀ v, read? bytes = some v →
      IntLiteral.read? bytes = some v ∧ ∀ b ∈ content bytes, b < 128) ∧
    ∀ v, IntLiteral.read? bytes = some v ↔ bytes.size < 16 ∧ ∃ front core back : List Char,
      IntLiteral.Holds bytes (front ++ core ++ back) ∧
        (∀ c ∈ front, Blank.isBlank c = true) ∧ (∀ c ∈ back, Blank.isBlank c = true) ∧
        signed? (core.flatMap String.utf8EncodeChar) = some v.toInt := by
  have hsub : ∀ v, read? bytes = some v →
      IntLiteral.read? bytes = some v ∧ ∀ b ∈ content bytes, b < 128 := fun v hv =>
    ⟨(read?_of_ascii (lt_of_read? hv)).trans hv, lt_of_read? hv⟩
  refine ⟨⟨fun h => ?_, ?_⟩, hsub, fun v => ?_⟩
  · cases hv : read? bytes with
    | none => exact .inr (h.trans hv)
    | some v => exact .inl (lt_of_read? hv)
  · rintro (hascii | hnone)
    · exact read?_of_ascii hascii
    · rw [hnone, eq_comm, Option.eq_none_iff_forall_ne_some]
      exact fun v hv => Option.some_ne_none v ((hsub v hv).1.symm.trans hnone)
  · rw [IntLiteral.read?_eq_some_iff]
    unfold IntLiteral.Literal IntLiteral.Spells
    constructor
    · rintro ⟨hsize, text, hholds, front, core, back, rfl, hfront, hback, hcore⟩
      exact ⟨hsize, front, core, back, hholds, hfront, hback, signed?_flatMap_eq_some_iff.2 hcore⟩
    · rintro ⟨hsize, front, core, back, hholds, hfront, hback, hcore⟩
      exact ⟨hsize, _, hholds, front, core, back, rfl, hfront, hback,
        signed?_flatMap_eq_some_iff.1 hcore⟩

/-- A hexadecimal number between an ideographic space and a next-line character is a literal as a
text, and none in bytes.  Between a space and a line feed it is one for both readers. -/
theorem agrees_iff_hexadecimal :
    let wide := "\u3000 -0x1F\u0085\n".toUTF8
    let plain := " -0x1F\n".toUTF8
    (IntLiteral.read? wide = some (-31) ∧ read? wide = none ∧ IntLiteral.read? wide ≠ read? wide) ∧
      read? plain = some (-31) ∧ IntLiteral.read? plain = some (-31) := by
  intro wide plain
  have hwide : IntLiteral.read? wide = some (-31) := by decide +kernel
  have hnone : read? wide = none := by decide +kernel
  have hplain : read? plain = some (-31) := by decide +kernel
  refine ⟨⟨hwide, hnone, fun h => ?_⟩, hplain, ((agrees_iff plain).2.1 _ hplain).1⟩
  rcases (agrees_iff wide).1.1 h with hascii | hread
  · exact absurd hascii (by decide +kernel)
  · cases hwide.symm.trans hread

/-- A no-break space and a digit: the reader of texts takes the two bytes of the space for a
blank, and the reader of bytes does not. -/
theorem no_break_space_taken :
    let bytes : ByteArray := ⟨#[0xC2, 0xA0, 0x35]⟩
    (∃ b ∈ content bytes, 128 ≤ b) ∧ IntLiteral.read? bytes = some 5 ∧ read? bytes = none := by
  decide +kernel

end ByteLiteral
end CpuSteward
