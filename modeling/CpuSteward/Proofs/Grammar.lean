import CpuSteward.Tunable.Registry
import Mathlib.Data.List.TakeWhile
import Mathlib.Data.Nat.Digits.Defs

/-!
# The grammar of integer literals

The reader takes a buffer apart step by step.  Here the same literals are described as a
whole: how the text of a number may look, and which number it stands for.  The reader takes
exactly these texts.

## Main definitions

* `IntLiteral.alphabet`, `IntLiteral.positional` — the digits of a base, and what they stand
  for in a row.
* `IntLiteral.Body`, `IntLiteral.Signed`, `IntLiteral.Spells` — the texts of a number without
  its sign, with it, and with blanks around it.
* `IntLiteral.Holds`, `IntLiteral.Literal` — the text in a buffer, and what it spells.
* `IntLiteral.signedWord` — sign and magnitude put together in words that may wrap.

## Main results

* `IntLiteral.magnitude?_eq_some_iff`, `IntLiteral.ofChars?_eq_some_iff` — the parts of the
  reader take the parts of the grammar.
* `IntLiteral.read?_eq_some_iff` — what the reader takes.
* `IntLiteral.unsigned?_lt` — no magnitude in a buffer is too great for a word of 64 bits.
* `IntLiteral.grammar` — **the reader takes exactly the grammar, and computes without
  overflow.**
-/

namespace CpuSteward

namespace Blank

variable {front body back : List Char}

/-- A text that does not begin with a blank keeps its front. -/
theorem dropWhile_append_of_not_isBlank (hne : body ≠ [])
    (hbody : ∀ c ∈ body, isBlank c = false) :
    (body ++ back).dropWhile isBlank = body ++ back := by
  cases body with
  | nil => exact absurd rfl hne
  | cons c body => exact List.dropWhile_cons_of_neg (by simp [hbody c List.mem_cons_self])

/-- Trimming takes the blanks off and leaves a text that has none. -/
theorem trim_append (hf : ∀ c ∈ front, isBlank c = true)
    (hb : ∀ c ∈ back, isBlank c = true) (hne : body ≠ [])
    (hbody : ∀ c ∈ body, isBlank c = false) : trim (front ++ body ++ back) = body := by
  have hstart : trimStart (front ++ body ++ back) = body ++ back := by
    rw [trimStart, List.append_assoc, List.dropWhile_append_of_pos hf,
      dropWhile_append_of_not_isBlank hne hbody]
  have hend : trimEnd (body ++ back) = body := by
    have hrev : body.reverse.dropWhile isBlank = body.reverse := by
      rw [← List.append_nil body.reverse]
      exact dropWhile_append_of_not_isBlank (by simpa using hne) (by simpa using hbody)
    rw [trimEnd, List.reverse_append, List.dropWhile_append_of_pos (by simpa using hb), hrev,
      List.reverse_reverse]
  rw [trim, hstart, hend]

/-- What trimming takes off is blank. -/
theorem exists_trim (s : List Char) : ∃ front back, s = front ++ trim s ++ back ∧
    (∀ c ∈ front, isBlank c = true) ∧ ∀ c ∈ back, isBlank c = true := by
  have hsplit : ∀ s : List Char, ∃ front, s = front ++ trimStart s ∧
      ∀ c ∈ front, isBlank c = true := fun s =>
    ⟨s.takeWhile isBlank, List.takeWhile_append_dropWhile.symm,
      fun c hc => List.mem_takeWhile_imp hc⟩
  obtain ⟨front, hs, hfront⟩ := hsplit s
  obtain ⟨back, hback, hblank⟩ := hsplit (trimStart s).reverse
  refine ⟨front, back.reverse, ?_, hfront, by simpa using hblank⟩
  have hrest : trimStart s = trim s ++ back.reverse := by
    have := congrArg List.reverse hback
    rwa [List.reverse_reverse, List.reverse_append] at this
  rw [List.append_assoc, ← hrest]
  exact hs

theorem length_trim_le (s : List Char) : (trim s).length ≤ s.length := by
  obtain ⟨front, back, hs, -⟩ := exists_trim s
  have := congrArg List.length hs
  simp only [List.length_append] at this
  omega

end Blank

namespace IntLiteral

variable {c : Char} {s text : List Char} {radix d n : Nat} {z : Int} {v : Int32}
  {bytes : ByteArray}

/-! ### Digits -/

/-- The digits of a base.  The hexadecimal ones have two cases. -/
def alphabet : Nat → List Char
  | 8 => ['0', '1', '2', '3', '4', '5', '6', '7']
  | 10 => ['0', '1', '2', '3', '4', '5', '6', '7', '8', '9']
  | 16 => ['0', '1', '2', '3', '4', '5', '6', '7', '8', '9', 'a', 'b', 'c', 'd', 'e', 'f',
      'A', 'B', 'C', 'D', 'E', 'F']
  | _ => []

/-- The value of a digit: its place in the row, the capitals counting like the small letters. -/
def digitValue (c : Char) : Nat :=
  if (alphabet 16).idxOf c < 16 then (alphabet 16).idxOf c else (alphabet 16).idxOf c - 6

/-- The value of digits in a row, the first being worth most. -/
def positional (base : Nat) (s : List Char) : Nat := Nat.ofDigits base (s.reverse.map digitValue)

/-- The bases that a literal can announce. -/
def bases : List Nat := [8, 10, 16]

/-- What a list of characters can be checked for.  Deciding the right side as it stands may
run through all characters that there are. -/
theorem forall_mem_of_all {p : Char → Prop} [DecidablePred p] (h : s.all fun c => p c) :
    ∀ c ∈ s, p c := by
  simpa using h

theorem digitValue?_of_mem (h : c ∈ alphabet 16) : digitValue? c = some (digitValue c) :=
  forall_mem_of_all (p := fun c => digitValue? c = some (digitValue c)) (by decide) c h

theorem mem_alphabet_iff (hr : radix ∈ bases) :
    c ∈ alphabet radix ↔ c ∈ alphabet 16 ∧ digitValue c < radix := by
  have hsub : ∀ radix ∈ bases, (alphabet radix).all fun c =>
      c ∈ alphabet 16 ∧ digitValue c < radix := by
    decide
  have hsup : ∀ radix ∈ bases, (alphabet 16).all fun c =>
      digitValue c < radix → c ∈ alphabet radix := by
    decide
  exact ⟨forall_mem_of_all (hsub radix hr) c, fun h =>
    forall_mem_of_all (hsup radix hr) c h.1 h.2⟩

/-- Everything that the reader knows a value for has a code below 128. -/
theorem toNat_lt_of_digitValue? (h : digitValue? c = some d) : c.toNat < 128 := by
  unfold digitValue? at h
  simp only [Char.le_def, UInt32.le_iff_toNat_le] at h
  split at h
  · rename_i hc
    exact Nat.lt_of_le_of_lt hc.2 (by decide)
  split at h
  · rename_i hc
    exact Nat.lt_of_le_of_lt hc.2 (by decide)
  split at h
  · rename_i hc
    exact Nat.lt_of_le_of_lt hc.2 (by decide)
  · cases h

theorem mem_alphabet_of_digitValue? (h : digitValue? c = some d) (hd : d < 16) :
    c ∈ alphabet 16 := by
  have hall : ∀ n < 128, n ∉ (alphabet 16).map Char.toNat →
      ∀ d ∈ digitValue? (Char.ofNat n), 16 ≤ d := by decide
  by_contra hc
  have hcode : c.toNat ∉ (alphabet 16).map Char.toNat := fun hmem =>
    have ⟨c', hc', he⟩ := List.mem_map.1 hmem
    hc (Char.toNat_inj.1 he ▸ hc')
  have hge := hall c.toNat (toNat_lt_of_digitValue? h) hcode d (by rwa [Char.ofNat_toNat])
  omega

theorem digit?_eq_some_iff (hr : radix ∈ bases) :
    digit? radix c = some d ↔ c ∈ alphabet radix ∧ digitValue c = d := by
  have hle : ∀ radix ∈ bases, radix ≤ 16 := by decide
  rw [mem_alphabet_iff hr]
  unfold digit?
  rw [Option.filter_eq_some_iff, decide_eq_true_eq]
  constructor
  · rintro ⟨hv, hlt⟩
    have hc := mem_alphabet_of_digitValue? hv (Nat.lt_of_lt_of_le hlt (hle radix hr))
    have hd : digitValue c = d := Option.some.inj ((digitValue?_of_mem hc).symm.trans hv)
    exact ⟨⟨hc, hd ▸ hlt⟩, hd⟩
  · rintro ⟨⟨hc, hlt⟩, rfl⟩
    exact ⟨digitValue?_of_mem hc, hlt⟩

/-! ### Digits in a row -/

theorem mapM_digit?_eq_some_iff (hr : radix ∈ bases) {ds : List Nat} :
    s.mapM (digit? radix) = some ds ↔ (∀ c ∈ s, c ∈ alphabet radix) ∧ s.map digitValue = ds := by
  induction s generalizing ds with
  | nil => simp [eq_comm]
  | cons c s ih =>
    simp only [List.mapM_cons, Option.bind_eq_bind, Option.bind_eq_some_iff, Option.pure_def,
      Option.some.injEq, List.forall_mem_cons, List.map_cons]
    constructor
    · rintro ⟨d, hd, ds, hds, rfl⟩
      obtain ⟨hc, rfl⟩ := (digit?_eq_some_iff hr).1 hd
      obtain ⟨hs, rfl⟩ := ih.1 hds
      exact ⟨⟨hc, hs⟩, rfl⟩
    · rintro ⟨⟨hc, hs⟩, rfl⟩
      exact ⟨_, (digit?_eq_some_iff hr).2 ⟨hc, rfl⟩, _, ih.2 ⟨hs, rfl⟩, rfl⟩

theorem ofDigits_map_digitValue : ofDigits radix (s.map digitValue) = positional radix s := by
  rw [positional, Nat.ofDigits_eq_foldr, List.map_reverse, List.foldr_reverse, ofDigits]
  simp only [Nat.cast_id, Nat.add_comm, Nat.mul_comm]

/-- The reader takes a non-empty row of digits of the base for what it stands for. -/
theorem magnitude?_eq_some_iff (hr : radix ∈ bases) :
    magnitude? radix s = some n ↔
      s ≠ [] ∧ (∀ c ∈ s, c ∈ alphabet radix) ∧ positional radix s = n := by
  unfold magnitude?
  cases s with
  | nil => simp
  | cons c s =>
    rw [List.isEmpty_cons, if_neg Bool.false_ne_true, Option.map_eq_some_iff]
    simp only [mapM_digit?_eq_some_iff hr, ne_eq, List.cons_ne_nil, not_false_iff, true_and,
      and_assoc, exists_and_left, exists_eq_left', ofDigits_map_digitValue]

/-- Digits in a row stand for less than the base to the power of their number. -/
theorem positional_lt (hr : radix ∈ bases) (hs : ∀ c ∈ s, c ∈ alphabet radix) :
    positional radix s < radix ^ s.length := by
  have hone : ∀ radix ∈ bases, 1 < radix := by decide
  have hlt : ∀ d ∈ s.reverse.map digitValue, d < radix := fun d hd => by
    obtain ⟨c, hc, rfl⟩ := List.mem_map.1 hd
    exact ((mem_alphabet_iff hr).1 (hs c (List.mem_reverse.1 hc))).2
  have h := Nat.ofDigits_lt_base_pow_length (hone radix hr) hlt
  rwa [List.length_map, List.length_reverse] at h

/-! ### Bodies and signs -/

/-- The texts of a number without its sign. -/
inductive Body : List Char → Nat → Prop
  /-- `0x` or `0X`, and hexadecimal digits. -/
  | hex {x : Char} {s : List Char} (hx : x = 'x' ∨ x = 'X') (hne : s ≠ [])
      (hs : ∀ c ∈ s, c ∈ alphabet 16) : Body ('0' :: x :: s) (positional 16 s)
  /-- `0`, and octal digits. -/
  | octal {s : List Char} (hne : s ≠ []) (hs : ∀ c ∈ s, c ∈ alphabet 8) :
      Body ('0' :: s) (positional 8 s)
  /-- The digit `0` alone. -/
  | zero : Body ['0'] 0
  /-- Another decimal digit, and decimal digits. -/
  | decimal {c : Char} {s : List Char} (hc : c ≠ '0') (hs : ∀ d ∈ c :: s, d ∈ alphabet 10) :
      Body (c :: s) (positional 10 (c :: s))

/-- The texts of a number with at most one sign in front. -/
inductive Signed : List Char → Int → Prop
  | bare {s : List Char} {n : Nat} (h : Body s n) : Signed s n
  | plus {s : List Char} {n : Nat} (h : Body s n) : Signed ('+' :: s) n
  | minus {s : List Char} {n : Nat} (h : Body s n) : Signed ('-' :: s) (-n)

/-- The value of a text without its sign, as the reader finds it. -/
def unsigned? (s : List Char) : Option Nat := magnitude? (splitRadix s).1 (splitRadix s).2

theorem splitRadix_mem_bases (s : List Char) : (splitRadix s).1 ∈ bases := by
  unfold splitRadix
  split <;> simp [bases]

theorem splitRadix_octal (hx : c ≠ 'x') (hX : c ≠ 'X') :
    splitRadix ('0' :: c :: s) = (8, c :: s) := by
  unfold splitRadix
  split <;> simp_all

theorem splitRadix_decimal (hc : c ≠ '0') : splitRadix (c :: s) = (10, c :: s) := by
  unfold splitRadix
  split <;> simp_all

theorem unsigned?_eq_some_iff : unsigned? s = some n ↔ Body s n := by
  unfold unsigned?
  rw [magnitude?_eq_some_iff (splitRadix_mem_bases s)]
  constructor
  · -- the four cases in which the reader takes the announcement of the base off
    unfold splitRadix
    split
    · rintro ⟨hne, hs, rfl⟩
      exact .hex (.inl rfl) hne hs
    · rintro ⟨hne, hs, rfl⟩
      exact .hex (.inr rfl) hne hs
    · rintro ⟨hne, hs, rfl⟩
      exact .octal hne hs
    · rename_i hx hX h0
      rintro ⟨hne, hs, rfl⟩
      match s, hne with
      | c :: s, _ =>
        by_cases hc : c = '0'
        · subst hc
          cases s with
          | nil => exact .zero
          | cons d s => exact absurd rfl (h0 d s)
        · exact .decimal hc hs
  · intro h
    cases h with
    | hex hx hne hs =>
      rcases hx with rfl | rfl <;> exact ⟨hne, hs, rfl⟩
    | zero => exact ⟨List.cons_ne_nil _ _, forall_mem_of_all (by decide), rfl⟩
    | @octal s hne hs =>
      cases s with
      | nil => exact absurd rfl hne
      | cons c s =>
        have hc : c ≠ 'x' ∧ c ≠ 'X' := by
          have hall : ∀ c ∈ alphabet 8, c ≠ 'x' ∧ c ≠ 'X' := forall_mem_of_all (by decide)
          exact hall c (hs c List.mem_cons_self)
        rw [splitRadix_octal hc.1 hc.2]
        exact ⟨hne, hs, rfl⟩
    | decimal hc hs =>
      rw [splitRadix_decimal hc]
      exact ⟨List.cons_ne_nil _ _, hs, rfl⟩

/-- The first character of a body is a decimal digit. -/
theorem Body.head (h : Body s n) : ∃ c s', s = c :: s' ∧ c ∈ alphabet 10 := by
  cases h with
  | hex hx hne hs => exact ⟨_, _, rfl, by decide⟩
  | octal hne hs => exact ⟨_, _, rfl, by decide⟩
  | zero => exact ⟨_, _, rfl, by decide⟩
  | decimal hc hs => exact ⟨_, _, rfl, hs _ List.mem_cons_self⟩

/-- The value of a text without blanks around it, as the reader finds it. -/
def signed? (s : List Char) : Option Int :=
  (unsigned? (splitSign s).2).map fun n : Nat => if (splitSign s).1 then -(n : Int) else n

theorem signed?_eq_some_iff : signed? s = some z ↔ Signed s z := by
  unfold signed?
  simp only [Option.map_eq_some_iff, unsigned?_eq_some_iff]
  constructor
  · unfold splitSign
    split
    · rintro ⟨n, h, rfl⟩
      exact .minus h
    · rintro ⟨n, h, rfl⟩
      exact .plus h
    · rintro ⟨n, h, rfl⟩
      exact .bare h
  · intro h
    cases h with
    | plus h => exact ⟨_, h, rfl⟩
    | minus h => exact ⟨_, h, rfl⟩
    | bare h =>
      obtain ⟨c, s, rfl, hc⟩ := h.head
      have hsign : splitSign (c :: s) = (false, c :: s) := by
        have hall : ∀ c ∈ alphabet 10, c ≠ '-' ∧ c ≠ '+' := forall_mem_of_all (by decide)
        unfold splitSign
        split <;> simp_all
      rw [hsign]
      exact ⟨_, h, rfl⟩

/-! ### Blanks around -/

/-- A text of a number with blanks at its two ends. -/
def Spells (text : List Char) (z : Int) : Prop :=
  ∃ front literal back, text = front ++ literal ++ back ∧
    (∀ c ∈ front, Blank.isBlank c = true) ∧ (∀ c ∈ back, Blank.isBlank c = true) ∧
    Signed literal z

/-- The characters that a literal is made of. -/
def characters : List Char := '+' :: '-' :: 'x' :: 'X' :: alphabet 16

theorem Body.mem_characters (h : Body s n) : ∀ c ∈ s, c ∈ characters := by
  have hdigit : ∀ radix ∈ bases, ∀ c ∈ alphabet radix, c ∈ characters := fun radix hr c hc =>
    List.mem_of_mem_drop (i := 4) ((mem_alphabet_iff hr).1 hc).1
  have hzero : '0' ∈ characters := by decide
  cases h with
  | @hex x s hx hne hs =>
    have hmem : x ∈ characters := by rcases hx with rfl | rfl <;> decide
    exact List.forall_mem_cons.2 ⟨hzero, List.forall_mem_cons.2
      ⟨hmem, fun c hc => hdigit 16 (by decide) c (hs c hc)⟩⟩
  | octal hne hs =>
    exact List.forall_mem_cons.2 ⟨hzero, fun c hc => hdigit 8 (by decide) c (hs c hc)⟩
  | zero => exact List.forall_mem_singleton.2 hzero
  | decimal hc hs => exact fun c hc => hdigit 10 (by decide) c (hs c hc)

theorem Signed.mem_characters (h : Signed s z) : ∀ c ∈ s, c ∈ characters := by
  cases h with
  | bare h => exact h.mem_characters
  | plus h => exact List.forall_mem_cons.2 ⟨by decide, h.mem_characters⟩
  | minus h => exact List.forall_mem_cons.2 ⟨by decide, h.mem_characters⟩

theorem Signed.not_isBlank (h : Signed s z) : ∀ c ∈ s, Blank.isBlank c = false := fun c hc =>
  forall_mem_of_all (p := fun c => Blank.isBlank c = false) (by decide) c (h.mem_characters c hc)

theorem Signed.ne_nil (h : Signed s z) : s ≠ [] := by
  cases h with
  | bare h =>
    obtain ⟨c, s, rfl, -⟩ := h.head
    exact List.cons_ne_nil c s
  | plus h => exact List.cons_ne_nil _ _
  | minus h => exact List.cons_ne_nil _ _

theorem ofChars?_eq_signed? (text : List Char) : ofChars? text = signed? (Blank.trim text) := by
  unfold ofChars? signed? unsigned?
  dsimp only
  cases magnitude? _ _ <;> rfl

/-- The reader takes a text for a value exactly if the text spells it. -/
theorem ofChars?_eq_some_iff : ofChars? text = some z ↔ Spells text z := by
  rw [ofChars?_eq_signed?, signed?_eq_some_iff]
  constructor
  · intro h
    obtain ⟨front, back, htext, hfront, hback⟩ := Blank.exists_trim text
    exact ⟨front, _, back, htext, hfront, hback, h⟩
  · rintro ⟨front, literal, back, rfl, hfront, hback, h⟩
    rwa [Blank.trim_append hfront hback h.ne_nil h.not_isBlank]

/-! ### Buffers -/

/-- The text in a buffer: the UTF-8 characters up to the first NUL or the end. -/
def Holds (bytes : ByteArray) (text : List Char) : Prop :=
  ∃ rest, bytes.data.toList = text.flatMap String.utf8EncodeChar ++ rest ∧
    0 ∉ text.flatMap String.utf8EncodeChar ∧ ∀ b ∈ rest.head?, b = 0

theorem utf8Decode?_upToNul_eq_some_iff :
    (upToNul bytes).utf8Decode? = some text.toArray ↔ Holds bytes text := by
  constructor
  · intro h
    have hencode : text.utf8Encode = upToNul bytes := by
      have hget := ByteArray.utf8Encode_get_utf8Decode? (b := upToNul bytes) (h := by rw [h]; rfl)
      simpa only [h, Option.get_some] using hget
    rw [List.utf8Encode.eq_1, upToNul, List.toByteArray_inj] at hencode
    refine ⟨bytes.data.toList.dropWhile (· ≠ 0), ?_, ?_, ?_⟩
    · rw [hencode, List.takeWhile_append_dropWhile]
    · rw [hencode]
      exact fun hzero => absurd (List.mem_takeWhile_imp hzero) (by decide)
    · intro b hb
      have hdrop := List.head?_dropWhile_not (· ≠ 0) bytes.data.toList
      rw [Option.mem_def.1 hb] at hdrop
      simpa using hdrop
  · rintro ⟨rest, hbytes, hzero, hrest⟩
    have hstop : rest.takeWhile (· ≠ 0) = [] := by
      cases rest with
      | nil => rfl
      | cons b rest => exact List.takeWhile_cons_of_neg (by simpa using hrest b rfl)
    have hup : upToNul bytes = text.utf8Encode := by
      rw [upToNul, hbytes, List.takeWhile_append_of_pos (by
        intro b hb
        exact decide_eq_true fun h => hzero (h ▸ hb)), hstop, List.append_nil]
      exact (List.utf8Encode.eq_1 text).symm
    rw [hup]
    exact List.utf8Decode?_utf8Encode

theorem word?_eq_some_iff : word? z = some v ↔ v.toInt = z := by
  constructor
  · exact toInt_of_word?
  · rintro rfl
    rw [word?, if_pos ⟨Int32.minValue_le_toInt v, Int32.toInt_le v⟩, Int32.ofInt_toInt]

/-- A buffer of admissible size with a text that spells a value. -/
def Literal (bytes : ByteArray) (z : Int) : Prop :=
  bytes.size < 16 ∧ ∃ text, Holds bytes text ∧ Spells text z

/-- **What the reader takes**: the words that the buffer is a literal of. -/
theorem read?_eq_some_iff : read? bytes = some v ↔ Literal bytes v.toInt := by
  unfold read? Literal maxBytes
  split
  · rename_i hsize
    simp only [Option.bind_eq_bind, Option.bind_eq_some_iff, word?_eq_some_iff]
    constructor
    · rintro ⟨text, htext, z, hz, rfl⟩
      exact ⟨hsize, text.toList, utf8Decode?_upToNul_eq_some_iff.1 (by simpa using htext),
        ofChars?_eq_some_iff.1 hz⟩
    · rintro ⟨-, text, htext, hz⟩
      exact ⟨text.toArray, utf8Decode?_upToNul_eq_some_iff.2 htext, _,
        ofChars?_eq_some_iff.2 (by simpa using hz), rfl⟩
  · rename_i hsize
    exact iff_of_false (Option.some_ne_none v).symm fun h => hsize h.1

/-! ### Words of 64 bits -/

/-- A buffer has at least as many bytes as its text has characters. -/
theorem Holds.length_le (h : Holds bytes text) : text.length ≤ bytes.size := by
  obtain ⟨rest, hbytes, -⟩ := h
  have hlength : ∀ s : List Char, s.length ≤ (s.flatMap String.utf8EncodeChar).length := by
    intro s
    induction s with
    | nil => exact Nat.le_refl 0
    | cons c s ih =>
      have hpos := Char.utf8Size_pos c
      rw [List.flatMap_cons, List.length_append, String.length_utf8EncodeChar, List.length_cons]
      omega
  have hsize : bytes.size = (text.flatMap String.utf8EncodeChar ++ rest).length := by
    rw [← hbytes]
    rfl
  rw [hsize, List.length_append]
  exact Nat.le_add_right_of_le (hlength text)

theorem length_splitSign_le (s : List Char) : (splitSign s).2.length ≤ s.length := by
  unfold splitSign
  split <;> simp

theorem length_splitRadix_le (s : List Char) : (splitRadix s).2.length ≤ s.length := by
  unfold splitRadix
  split <;> simp <;> omega

/-- The magnitude of a text of fewer than 16 characters fits into 60 bits. -/
theorem unsigned?_lt (h : unsigned? s = some n) (hs : s.length < 16) : n < 16 ^ 15 := by
  obtain ⟨-, hdigits, rfl⟩ := (magnitude?_eq_some_iff (splitRadix_mem_bases s)).1 h
  have hbase : ∀ radix ∈ bases, radix ≤ 16 := by decide
  have hlength := length_splitRadix_le s
  calc positional (splitRadix s).1 (splitRadix s).2
    _ < (splitRadix s).1 ^ (splitRadix s).2.length :=
        positional_lt (splitRadix_mem_bases s) hdigits
    _ ≤ 16 ^ (splitRadix s).2.length := Nat.pow_le_pow_left (hbase _ (splitRadix_mem_bases s)) _
    _ ≤ 16 ^ 15 := Nat.pow_le_pow_right (by decide) (by omega)

/-- A sign and a magnitude put together in words of 64 bits, in which a cast or a change of
sign may wrap. -/
def signedWord (negative : Bool) (n : Nat) : Int64 :=
  if negative then -(UInt64.ofNat n).toInt64 else (UInt64.ofNat n).toInt64

theorem toInt_signedWord (negative : Bool) (h : n < 2 ^ 63) :
    (signedWord negative n).toInt = if negative then -(n : Int) else n := by
  unfold signedWord
  rw [UInt64.toInt64_ofNat']
  cases negative with
  | false => exact Int64.toInt_ofNat_of_lt h
  | true => exact Int64.toInt_neg_ofNat_of_le (Nat.le_of_lt h)

/-! ### The main theorem -/

/-- **The reader takes exactly the grammar.**  A buffer is read as a word if and only if it is
a literal of a value in the range of signed words, and then as that value.  Every other
buffer is malformed, whichever tunable it is written to, and is never reported as out of
range.  On the way no magnitude leaves the positive words of 64 bits, so that neither the
cast nor the change of sign wraps. -/
theorem grammar (bytes : ByteArray) :
    (∀ v : Int32, read? bytes = some v ↔
      ∃ z, Literal bytes z ∧ -2 ^ 31 ≤ z ∧ z ≤ 2 ^ 31 - 1 ∧ v.toInt = z) ∧
    ((∀ z, Literal bytes z → ¬(-2 ^ 31 ≤ z ∧ z ≤ 2 ^ 31 - 1)) →
      read? bytes = none ∧ ∀ (r : Registry) (t : Tunable), t.spec.access = .readWrite →
        r.set t bytes = .error (.value .malformed)) ∧
    (bytes.size < 16 → ∀ text n, Holds bytes text →
      unsigned? (splitSign (Blank.trim text)).2 = some n →
        n < 2 ^ 63 ∧
          ∀ negative, (signedWord negative n).toInt = if negative then -(n : Int) else n) := by
  have hrange : ∀ v : Int32, -2 ^ 31 ≤ v.toInt ∧ v.toInt ≤ 2 ^ 31 - 1 := fun v =>
    ⟨v.le_toInt, by have := v.toInt_lt; omega⟩
  refine ⟨fun v => ?_, fun hnone => ?_, fun hsize text n htext hn => ?_⟩
  · rw [read?_eq_some_iff]
    constructor
    · exact fun h => ⟨v.toInt, h, (hrange v).1, (hrange v).2, rfl⟩
    · rintro ⟨z, h, -, -, rfl⟩
      exact h
  · have hread : read? bytes = none := Option.eq_none_iff_forall_not_mem.2 fun v hv =>
      hnone v.toInt (read?_eq_some_iff.1 hv) (hrange v)
    exact ⟨hread, fun r t ht => Registry.set_of_malformed ht hread⟩
  · have hlength : (splitSign (Blank.trim text)).2.length < 16 := by
      have htrim := Blank.length_trim_le text
      have hsign := length_splitSign_le (Blank.trim text)
      have hbytes := htext.length_le
      omega
    have hlt : n < 2 ^ 63 := Nat.lt_of_lt_of_le (unsigned?_lt hn hlength) (by decide)
    exact ⟨hlt, fun negative => toInt_signedWord negative hlt⟩

example : read? " -0X1f\n".toUTF8 = some (-31) := by decide +kernel

example : ["0", "-00", "+017"].map (read? ·.toUTF8) = [some 0, some 0, some 15] := by
  decide +kernel

example : ["", "0x", "08", "+-1", "- 1", "2147483648"].map (read? ·.toUTF8) =
    List.replicate 6 none := by decide +kernel

end IntLiteral
end CpuSteward
