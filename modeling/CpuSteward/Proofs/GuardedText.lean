import CpuSteward.Proofs.Backup
import CpuSteward.Proofs.Guarded

/-!
# Guarded slices

A part of a text is named by byte offsets, and an offset can be past the end or inside a
character.  The functions that cut texts are carried out here with a guard before each cut:
the reader of literals, the file name in a path, and the names of governors.  The tunables
are carried out with a guard before each look at a table.

## Main definitions

* `Guarded.takeBytes`, `Guarded.dropBytes` — a text up to a byte offset, and from it on.
* `Guarded.read` — the reader of literals, in words.
* `Guarded.fileName` — what is behind the last slash of a path.
* `Guarded.truncate` — the loop that looks for the last offset between two characters.

## Main results

* `Guarded.takeBytes_eq_some_iff`, `Guarded.dropBytes_append` — where a text can be cut.
* `Guarded.head?_utf8EncodeChar_eq_some_iff` — a byte below 128 is a character.
* `Guarded.read_eq`, `Guarded.truncate_eq`, `Guarded.saveName_eq` — no cut is out of place.
-/

namespace CpuSteward
namespace Guarded

/-! ### Slices -/

section Slices

variable {s t : List Char} {c : Char}

/-- The bytes of a text. -/
def size : List Char → Nat
  | [] => 0
  | c :: s => c.utf8Size + size s

/-- The text up to a byte offset, if the offset is between two characters or at an end. -/
def takeBytes : Nat → List Char → Option (List Char)
  | 0, _ => some []
  | _ + 1, [] => none
  | n + 1, c :: s =>
    if c.utf8Size ≤ n + 1 then (takeBytes (n + 1 - c.utf8Size) s).map (c :: ·) else none

/-- The text from a byte offset on, if the offset is between two characters or at an end. -/
def dropBytes : Nat → List Char → Option (List Char)
  | 0, s => some s
  | _ + 1, [] => none
  | n + 1, c :: s => if c.utf8Size ≤ n + 1 then dropBytes (n + 1 - c.utf8Size) s else none

/-- The first elements of a list, if it has that many. -/
def front {α : Type} (n : Nat) (l : List α) : Option (List α) :=
  if n ≤ l.length then some (l.take n) else none

@[simp] theorem size_nil : size [] = 0 := rfl

@[simp] theorem size_cons (c : Char) (s : List Char) : size (c :: s) = c.utf8Size + size s := rfl

@[simp] theorem size_append (s t : List Char) : size (s ++ t) = size s + size t := by
  induction s with
  | nil => simp
  | cons c s ih => simp [ih, Nat.add_assoc]

@[simp] theorem takeBytes_zero (s : List Char) : takeBytes 0 s = some [] := by
  cases s <;> rfl

@[simp] theorem dropBytes_zero (s : List Char) : dropBytes 0 s = some s := by
  cases s <;> rfl

theorem length_flatMap_utf8EncodeChar (s : List Char) :
    (s.flatMap String.utf8EncodeChar).length = size s := by
  induction s with
  | nil => rfl
  | cons c s ih => rw [List.flatMap_cons, List.length_append, String.length_utf8EncodeChar, ih,
      size_cons]

/-- A text can be cut at the end of a front of it, and nowhere else. -/
theorem takeBytes_eq_some_iff {n : Nat} : takeBytes n s = some t ↔ t <+: s ∧ size t = n := by
  induction s generalizing n t with
  | nil =>
    cases n with
    | zero => simp +contextual [eq_comm]
    | succ n => simp +contextual [takeBytes]
  | cons c s ih =>
    have hpos := c.utf8Size_pos
    cases n with
    | zero =>
      rw [takeBytes_zero, Option.some_inj]
      constructor
      · rintro rfl
        simp
      · rintro ⟨-, ht⟩
        cases t with
        | nil => rfl
        | cons d t =>
          have := d.utf8Size_pos
          simp only [size_cons] at ht
          omega
    | succ n =>
      rw [takeBytes]
      split
      · rename_i hle
        rw [Option.map_eq_some_iff]
        constructor
        · rintro ⟨t, ht, rfl⟩
          obtain ⟨hpre, hsize⟩ := ih.1 ht
          refine ⟨List.cons_prefix_cons.2 ⟨rfl, hpre⟩, ?_⟩
          rw [size_cons]
          omega
        · rintro ⟨hpre, hsize⟩
          cases t with
          | nil => simp at hsize
          | cons d t =>
            obtain ⟨rfl, htail⟩ := List.cons_prefix_cons.1 hpre
            rw [size_cons] at hsize
            exact ⟨t, ih.2 ⟨htail, by omega⟩, rfl⟩
      · rename_i hle
        refine iff_of_false (by simp) ?_
        rintro ⟨hpre, hsize⟩
        cases t with
        | nil => simp at hsize
        | cons d t =>
          obtain ⟨rfl, -⟩ := List.cons_prefix_cons.1 hpre
          rw [size_cons] at hsize
          omega

theorem dropBytes_append (s t : List Char) : dropBytes (size s) (s ++ t) = some t := by
  induction s with
  | nil => simp
  | cons c s ih =>
    obtain ⟨n, hn⟩ : ∃ n, c.utf8Size + size s = n + 1 :=
      ⟨c.utf8Size + size s - 1, by have := c.utf8Size_pos; omega⟩
    rw [size_cons, List.cons_append, hn, dropBytes, if_pos (by omega), ← hn,
      Nat.add_sub_cancel_left, ih]

/-- A character of one byte can be cut off. -/
theorem dropBytes_one (h : c.utf8Size = 1) (s : List Char) : dropBytes 1 (c :: s) = some s := by
  have hdrop := dropBytes_append [c] s
  rwa [size_cons, size_nil, h] at hdrop

theorem front_eq {α : Type} {n : Nat} {l : List α} (h : n ≤ l.length) :
    front n l = some (l.take n) := if_pos h

end Slices

/-! ### Literals -/

section Literals

variable {c : Char} {s : List Char} {negative : Bool} {n : Nat}

/-- The first byte of a text. -/
def firstByte? (s : List Char) : Option UInt8 := (s.flatMap String.utf8EncodeChar).head?

/-- Take one sign off: it is found as a byte, and one byte is cut off. -/
def splitSign (s : List Char) : Option (Bool × List Char) :=
  if firstByte? s = some 0x2D then do some (true, ← dropBytes 1 s)
  else if firstByte? s = some 0x2B then do some (false, ← dropBytes 1 s)
  else some (false, s)

/-- Take the announcement of the base off. -/
def splitRadix (s : List Char) : Option (Nat × List Char) :=
  match s with
  | '0' :: 'x' :: digits => some (16, digits)
  | '0' :: 'X' :: digits => some (16, digits)
  | _ => if 1 < size s ∧ s.head? = some '0' then do some (8, ← dropBytes 1 s) else some (10, s)

/-- The value of digits as a word.  There are digits for the bases from 2 to 36 only; a value
that is too great for a word is none. -/
def magnitude (radix : Nat) (digits : List Char) : Option (Option UInt64) :=
  if 2 ≤ radix ∧ radix ≤ 36 then
    some (((IntLiteral.magnitude? radix digits).filter (· < UInt64.size)).map UInt64.ofNat)
  else none

/-- A word with its sign changed, unless it is the least one. -/
def neg (z : Int64) : Option Int64 := if z = Int64.minValue then none else some (-z)

/-- Sign and magnitude put together. -/
def signed (negative : Bool) (n : UInt64) : Option Int64 :=
  if negative then neg n.toInt64 else some n.toInt64

/-- The value of a text, blanks at its ends aside. -/
def readText (s : List Char) : Option (Option Int32) := do
  let (negative, unsigned) ← splitSign (Blank.trim s)
  let (radix, digits) ← splitRadix unsigned
  match ← magnitude radix digits with
  | none => some none
  | some n => do
    let value ← signed negative n
    some (IntLiteral.word? value.toInt)

/-- The value of a buffer. -/
def read (bytes : ByteArray) : Option (Option Int32) :=
  if IntLiteral.maxBytes ≤ bytes.size then some none
  else do
    let part ← front (bytes.data.toList.findIdx (· == 0)) bytes.data.toList
    match part.toByteArray.utf8Decode? with
    | none => some none
    | some text => readText text.toList

/-- Every byte of a character of more than one byte is 128 or more. -/
theorem le_toNat_of_mem (h : c.utf8Size ≠ 1) {b : UInt8} (hb : b ∈ String.utf8EncodeChar c) :
    128 ≤ b.toNat := by
  -- such a byte is made of some bits of the character and a mark that is at least 128
  have hor : ∀ x y : UInt8, 128 ≤ y.toNat → 128 ≤ (x ||| y).toNat := fun x y hy => by
    rw [UInt8.toNat_or]
    exact Nat.le_trans hy Nat.right_le_or
  rcases c.utf8Size_eq with h1 | h2 | h3 | h4
  · exact absurd h1 h
  · rw [String.utf8EncodeChar_eq_cons_cons h2] at hb
    simp only [List.mem_cons, List.not_mem_nil, or_false] at hb
    rcases hb with rfl | rfl <;> exact hor _ _ (by decide)
  · rw [String.utf8EncodeChar_eq_cons_cons_cons h3] at hb
    simp only [List.mem_cons, List.not_mem_nil, or_false] at hb
    rcases hb with rfl | rfl | rfl <;> exact hor _ _ (by decide)
  · rw [String.utf8EncodeChar_eq_cons_cons_cons_cons h4] at hb
    simp only [List.mem_cons, List.not_mem_nil, or_false] at hb
    rcases hb with rfl | rfl | rfl | rfl <;> exact hor _ _ (by decide)

/-- A byte below 128 at the front of a character is the character. -/
theorem head?_utf8EncodeChar_eq_some_iff {b : UInt8} (hb : b.toNat < 128) :
    (String.utf8EncodeChar c).head? = some b ↔ c.toNat = b.toNat := by
  by_cases h : c.utf8Size = 1
  · have hlt : c.toNat < 128 := by
      have := Char.utf8Size_eq_one_iff.1 h
      exact Nat.lt_of_le_of_lt (UInt32.le_iff_toNat_le.1 this) (by decide)
    rw [String.utf8EncodeChar_eq_singleton h, List.head?_cons, Option.some_inj, ← UInt8.toNat_inj,
      UInt32.toNat_toUInt8]
    show c.toNat % 256 = b.toNat ↔ _
    rw [Nat.mod_eq_of_lt (by omega)]
  · constructor
    · intro hhead
      have := le_toNat_of_mem h (List.mem_of_head? hhead)
      omega
    · intro he
      refine absurd (Char.utf8Size_eq_one_iff.2 ?_) h
      rw [UInt32.le_iff_toNat_le]
      show c.toNat ≤ 127
      omega

theorem firstByte?_cons (c : Char) (s : List Char) :
    firstByte? (c :: s) = (String.utf8EncodeChar c).head? := by
  have hne : String.utf8EncodeChar c ≠ [] := fun h0 => by
    have hlength := congrArg List.length h0
    have hpos := c.utf8Size_pos
    rw [String.length_utf8EncodeChar, List.length_nil] at hlength
    omega
  rw [firstByte?, List.flatMap_cons, List.head?_append_of_ne_nil _ hne]

theorem splitSign_eq (s : List Char) : splitSign s = some (IntLiteral.splitSign s) := by
  unfold splitSign
  cases s with
  | nil => rfl
  | cons c s =>
    have hminus := head?_utf8EncodeChar_eq_some_iff (c := c) (b := 0x2D) (by decide)
    have hplus := head?_utf8EncodeChar_eq_some_iff (c := c) (b := 0x2B) (by decide)
    rw [firstByte?_cons]
    split
    · rename_i hfirst
      obtain rfl : c = '-' := Char.toNat_inj.1 (hminus.1 hfirst)
      rw [dropBytes_one (by decide)]
      rfl
    · rename_i hfirst
      split
      · rename_i hfirst
        obtain rfl : c = '+' := Char.toNat_inj.1 (hplus.1 hfirst)
        rw [dropBytes_one (by decide)]
        rfl
      · rename_i hfirst'
        have hne : c ≠ '-' := fun h => hfirst (hminus.2 (h ▸ rfl))
        have hne' : c ≠ '+' := fun h => hfirst' (hplus.2 (h ▸ rfl))
        unfold IntLiteral.splitSign
        split <;> simp_all

theorem splitRadix_eq (s : List Char) : splitRadix s = some (IntLiteral.splitRadix s) := by
  unfold splitRadix
  split
  · rfl
  · rfl
  · rename_i hx hX
    match s, hx, hX with
    | [], _, _ => rfl
    | [c], _, _ =>
      by_cases hc : c = '0'
      · subst hc
        rfl
      · rw [if_neg (by simp [hc]), IntLiteral.splitRadix_decimal hc]
    | c :: d :: s, hx, hX =>
      by_cases hc : c = '0'
      · subst hc
        have hd : d ≠ 'x' := fun h => hx s (h ▸ rfl)
        have hd' : d ≠ 'X' := fun h => hX s (h ▸ rfl)
        have hsize : 1 < size ('0' :: d :: s) := by
          have := d.utf8Size_pos
          have hone : '0'.utf8Size = 1 := by decide
          simp only [size_cons, hone]
          omega
        rw [if_pos ⟨hsize, rfl⟩, dropBytes_one (by decide), IntLiteral.splitRadix_octal hd hd']
        rfl
      · rw [if_neg (by simp [hc]), IntLiteral.splitRadix_decimal hc]

/-- A base that a literal can announce has digits. -/
theorem magnitude_eq (s : List Char) : magnitude (IntLiteral.splitRadix s).1
    (IntLiteral.splitRadix s).2 =
      some (((IntLiteral.unsigned? s).filter (· < UInt64.size)).map UInt64.ofNat) := by
  have hbase : ∀ radix ∈ IntLiteral.bases, 2 ≤ radix ∧ radix ≤ 36 := by decide
  exact if_pos (hbase _ (IntLiteral.splitRadix_mem_bases s))

theorem signed_eq (negative : Bool) (h : n < 2 ^ 63) :
    signed negative (.ofNat n) = some (IntLiteral.signedWord negative n) := by
  unfold signed IntLiteral.signedWord
  split
  · refine if_neg fun hmin => ?_
    rw [UInt64.toInt64_ofNat'] at hmin
    have hnat := Int64.toInt_ofNat_of_lt h
    rw [hmin, Int64.toInt_minValue] at hnat
    omega
  · rfl

/-- A text that is short enough is read without a cut out of place or a sign that cannot be
changed. -/
theorem readText_eq (h : s.length < 16) :
    readText s = some ((IntLiteral.ofChars? s).bind IntLiteral.word?) := by
  have hlength : (IntLiteral.splitSign (Blank.trim s)).2.length < 16 := by
    have htrim := Blank.length_trim_le s
    have hsign := IntLiteral.length_splitSign_le (Blank.trim s)
    omega
  rw [IntLiteral.ofChars?_eq_signed?, IntLiteral.signed?]
  unfold readText
  rw [splitSign_eq]
  generalize IntLiteral.splitSign (Blank.trim s) = part at hlength ⊢
  obtain ⟨negative, unsigned⟩ := part
  rw [Option.bind_eq_bind, Option.bind_some]
  show (splitRadix unsigned).bind _ = _
  rw [splitRadix_eq, Option.bind_some]
  show (magnitude (IntLiteral.splitRadix unsigned).1 (IntLiteral.splitRadix unsigned).2).bind _ = _
  rw [magnitude_eq, Option.bind_some]
  cases hn : IntLiteral.unsigned? unsigned with
  | none => rfl
  | some n =>
    have hlt : n < 2 ^ 63 :=
      Nat.lt_of_lt_of_le (IntLiteral.unsigned?_lt hn hlength) (by decide)
    have hword : n < UInt64.size := Nat.lt_trans hlt (by decide)
    have hfilter : (some n).filter (fun n => decide (n < UInt64.size)) = some n := by
      simp [hword]
    rw [hfilter, Option.map_some, Option.map_some, Option.bind_some]
    show (signed negative (.ofNat n)).bind _ = _
    rw [signed_eq negative hlt, Option.bind_some, IntLiteral.toInt_signedWord negative hlt]

/-- The bytes before the first NUL, found by its place. -/
theorem take_findIdx_eq (l : List UInt8) :
    l.take (l.findIdx (· == 0)) = l.takeWhile (· ≠ 0) := by
  have hstop : (fun b : UInt8 => b == 0) = fun b => !decide (b ≠ 0) :=
    funext fun b => Bool.eq_iff_iff.2 (by simp)
  rw [List.takeWhile_eq_take_findIdx_not, hstop]

theorem read_eq (bytes : ByteArray) : read bytes = some (IntLiteral.read? bytes) := by
  unfold read IntLiteral.read?
  by_cases hsize : IntLiteral.maxBytes ≤ bytes.size
  · rw [if_pos hsize, if_neg (Nat.not_lt.2 hsize)]
  · rw [if_neg hsize, if_pos (Nat.not_le.1 hsize), front_eq List.findIdx_le_length,
      take_findIdx_eq, Option.bind_eq_bind, Option.bind_some, ← IntLiteral.upToNul]
    cases htext : (IntLiteral.upToNul bytes).utf8Decode? with
    | none => rfl
    | some text =>
      have hholds : IntLiteral.Holds bytes text.toList :=
        IntLiteral.utf8Decode?_upToNul_eq_some_iff.1 (by simpa using htext)
      exact readText_eq (Nat.lt_of_le_of_lt hholds.length_le (Nat.not_le.1 hsize))

end Literals

/-! ### Tunables -/

section Tunables

variable {r : Registry} {t : Tunable}

/-- The byte offset of the last slash of a text. -/
def lastSlash? : List Char → Option Nat
  | [] => none
  | c :: s =>
    match lastSlash? s with
    | some i => some (c.utf8Size + i)
    | none => if c = '/' then some 0 else none

/-- What is behind the last slash of a path; a path without one is a file name. -/
def fileName (path : String) : Option String :=
  match lastSlash? path.toList with
  | none => some path
  | some i => do some (.ofList (← dropBytes (i + 1) path.toList))

/-- The specification of a tunable, found by its place in the order. -/
def specOf (t : Tunable) : Option TunableSpec := (Tunable.all.map Tunable.spec)[t.index.val]?

/-- The current value of a tunable, found by its place in the order. -/
def value (r : Registry) (t : Tunable) : Option Int32 := r.values[t.index.val]?

/-- Give a tunable a value at its place in the order. -/
def setValueAt (r : Registry) (t : Tunable) (v : Int32) : Option Registry := do
  some ⟨← put r.values t.index.val v⟩

/-- The value itself if the tunable may hold it, else the nearer end of its range. -/
def clampTo (s : TunableSpec) (v : Int32) : Option Int32 :=
  match s.bounds with
  | none => some v
  | some b => clamp b.lo b.hi v

/-- The registry in which every tunable has its default, filled place by place. -/
def defaults : Option Registry := do
  let values ← (List.range Tunable.count).foldlM (fun values i => do
    put values i (← (Tunable.all.map Tunable.spec)[i]?).default) (.replicate Tunable.count 0)
  some ⟨values⟩

/-- Give every tunable its default. -/
def reset (r : Registry) : Option Registry :=
  Tunable.all.foldlM (fun r t => setValueAt r t t.spec.default) r

/-- Write a value from outside. -/
def setValue (r : Registry) (t : Tunable) (v : Int32) : Option (Except SetError Registry) := do
  let s ← specOf t
  match s.access, s.bounds with
  | .readOnly, _ => some (.error .readOnly)
  | .readWrite, none => do some (.ok (← setValueAt r t v))
  | .readWrite, some b =>
    if b.accepts v then do some (.ok (← setValueAt r t v))
    else some (.error (.value (.outOfRange b.lo b.hi)))

/-- Write the integer literal in a buffer from outside. -/
def set (r : Registry) (t : Tunable) (bytes : ByteArray) :
    Option (Except SetError Registry) := do
  let s ← specOf t
  match s.access with
  | .readOnly => some (.error .readOnly)
  | .readWrite => do
    match ← read bytes with
    | none => some (.error (.value .malformed))
    | some v => setValue r t v

/-- Update a tunable from within; a value outside its range is clamped. -/
def store (r : Registry) (t : Tunable) (v : Int32) : Option Registry := do
  setValueAt r t (← clampTo (← specOf t) v)

/-- Count a tunable up by one from within, in a word that may wrap. -/
def increment (r : Registry) (t : Tunable) : Option Registry := do
  setValueAt r t ((← value r t) + 1)

/-- The tunable that a path or a bare file name means. -/
def find (s : String) : Option (Option Tunable) :=
  Tunable.all.findM? fun t =>
    if t.path == s then some true else do some ((← fileName t.path) == s)

/-- The value of the tunable that a path or a bare file name means. -/
def valueByName (r : Registry) (s : String) : Option (Option Int32) := do
  match ← find s with
  | none => some none
  | some t => do some (some (← value r t))

/-- The path and value of every tunable, in order. -/
def snapshot (r : Registry) : Option (List (String × Int32)) :=
  Tunable.all.mapM fun t => do some (t.path, ← value r t)

theorem lastSlash?_of_not_mem {s : List Char} (h : '/' ∉ s) : lastSlash? s = none := by
  induction s with
  | nil => rfl
  | cons c s ih =>
    rw [List.mem_cons, not_or] at h
    rw [lastSlash?, ih h.2]
    exact if_neg (Ne.symm h.1)

theorem lastSlash?_append {a b : List Char} (h : '/' ∉ b) :
    lastSlash? (a ++ '/' :: b) = some (size a) := by
  induction a with
  | nil =>
    rw [List.nil_append, lastSlash?, lastSlash?_of_not_mem h]
    rfl
  | cons c a ih => rw [List.cons_append, lastSlash?, ih, size_cons]

/-- What is behind the last slash can be cut off. -/
theorem fileName_append {path name : String} (directory : String)
    (hpath : path.toList = directory.toList ++ '/' :: name.toList) (h : '/' ∉ name.toList) :
    fileName path = some name := by
  have hdrop := dropBytes_append (directory.toList ++ ['/']) name.toList
  have hone : '/'.utf8Size = 1 := by decide
  rw [size_append, size_cons, size_nil, hone, List.append_assoc, List.singleton_append] at hdrop
  unfold fileName
  rw [hpath, lastSlash?_append h]
  show (dropBytes (size directory.toList + 1) _).bind _ = _
  rw [hdrop, Option.bind_some, String.ofList_toList]

theorem fileName_of_not_mem {path : String} (h : '/' ∉ path.toList) :
    fileName path = some path := by
  unfold fileName
  rw [lastSlash?_of_not_mem h]

theorem fileName_path (t : Tunable) : fileName t.path = some t.name := by
  have hname : '/' ∉ t.name.toList := (validName_iff.1 t.validName_name).2.1
  unfold Tunable.path TunableSpec.path
  cases hd : t.spec.group.directory? with
  | none => exact fileName_of_not_mem hname
  | some directory =>
    exact fileName_append directory (by simp [Tunable.name]) hname

@[simp] theorem specOf_eq (t : Tunable) : specOf t = some t.spec := by
  have h := Tunable.ofIndex?_index t
  rw [Tunable.ofIndex?] at h
  rw [specOf, List.getElem?_map, h, Option.map_some]

@[simp] theorem value_eq (r : Registry) (t : Tunable) : value r t = some (r.get t) :=
  Vector.getElem?_eq_getElem t.index.isLt

@[simp] theorem setValueAt_eq (r : Registry) (t : Tunable) (v : Int32) :
    setValueAt r t v = some (r.put t v) := by
  rw [setValueAt, put_eq t.index.isLt]
  rfl

@[simp] theorem clampTo_eq (s : TunableSpec) (v : Int32) : clampTo s v = some (s.clamp v) := by
  unfold clampTo TunableSpec.clamp
  cases s.bounds with
  | none => rfl
  | some b => exact if_pos b.lo_le_hi

theorem defaults_eq : defaults = some .defaults := by decide +kernel

theorem reset_eq (r : Registry) : reset r = some .defaults := by
  have key : ∀ (l : List Tunable) (r : Registry) (u : Tunable),
      (l.foldl (fun r t => r.put t t.spec.default) r).get u =
        if u ∈ l then u.spec.default else r.get u := by
    intro l
    induction l with
    | nil => simp
    | cons t l ih =>
      intro r u
      rw [List.foldl_cons, ih, Registry.get_put]
      grind
  rw [reset, foldlM_eq fun r t _ => setValueAt_eq r t t.spec.default, Option.some_inj]
  refine Registry.ext_get fun u => ?_
  rw [key, if_pos u.mem_all, Registry.get_defaults]

@[simp] theorem setValue_eq (r : Registry) (t : Tunable) (v : Int32) :
    setValue r t v = some (r.setValue t v) := by
  unfold setValue Registry.setValue
  rw [specOf_eq, Option.bind_eq_bind, Option.bind_some]
  cases t.spec.access with
  | readOnly => rfl
  | readWrite =>
    cases t.spec.bounds with
    | none =>
      rw [setValueAt_eq]
      rfl
    | some b =>
      dsimp only
      rw [setValueAt_eq]
      split <;> rfl

@[simp] theorem set_eq (r : Registry) (t : Tunable) (bytes : ByteArray) :
    set r t bytes = some (r.set t bytes) := by
  unfold set Registry.set
  rw [specOf_eq, Option.bind_eq_bind, Option.bind_some]
  cases t.spec.access with
  | readOnly => rfl
  | readWrite =>
    dsimp only
    rw [read_eq, Option.bind_eq_bind, Option.bind_some]
    cases IntLiteral.read? bytes with
    | none => rfl
    | some v => exact setValue_eq r t v

@[simp] theorem store_eq (r : Registry) (t : Tunable) (v : Int32) :
    store r t v = some (r.store t v) := by
  simp [store, Registry.store]

@[simp] theorem increment_eq (r : Registry) (t : Tunable) :
    increment r t = some (r.increment t) := by
  simp [increment, Registry.increment]

/-- A search in which every test has a result is the search without guards. -/
theorem findM?_eq {α : Type} {l : List α} {p : α → Option Bool} {q : α → Bool}
    (h : ∀ a ∈ l, p a = some (q a)) : l.findM? p = some (l.find? q) := by
  induction l with
  | nil => rfl
  | cons a l ih =>
    rw [List.findM?, h a List.mem_cons_self, Option.bind_eq_bind, Option.bind_some, List.find?_cons]
    cases q a with
    | true => rfl
    | false => exact ih fun a' ha' => h a' (List.mem_cons_of_mem _ ha')

theorem find_eq (s : String) : find s = some (Tunable.find? s) := by
  refine findM?_eq fun t _ => ?_
  rw [fileName_path]
  cases t.path == s <;> simp

theorem valueByName_eq (r : Registry) (s : String) :
    valueByName r s = some (r.getByName? s) := by
  unfold valueByName Registry.getByName?
  rw [find_eq]
  cases Tunable.find? s <;> simp

theorem snapshot_eq (r : Registry) : snapshot r = some r.snapshot :=
  mapM_eq fun t _ => by simp

end Tunables

/-! ### Names of governors -/

section Governors

variable {s t : List Char} {n : Nat} {g : GovernorTable} {k : Kernel}

/-- The last offset between two characters that is not behind the given one.  The loop goes
down byte by byte and must not get below zero. -/
def truncate (s : List Char) (len : Nat) : Option Nat :=
  if (takeBytes len s).isSome then some len
  else
    match len with
    | 0 => none
    | len + 1 => truncate s len

/-- The front of a vector overwritten by a list, which has to be as long as the part that is
overwritten. -/
def copy {α : Type} (v : Vector α n) (len : Nat) (l : List α) : Option (Vector α n) :=
  if len ≤ n ∧ l.length = len then some (.ofFn fun i : Fin n => l.getD i (v.get i)) else none

/-- Keep a name in the slot of a CPU, with the part of it that the log shows. -/
def saveName (slots : Vector NameSlot maxCpus) (cpu : Nat) (name : String) :
    Option (Vector NameSlot maxCpus × String) := do
  let len ← truncate name.toList (min (size name.toList) (NameSlot.size - 1))
  let bytes ← front len name.toUTF8.data.toList
  let slot ← copy NameSlot.empty.bytes len bytes
  let shown ← takeBytes len name.toList
  some (← put slots cpu ⟨slot⟩, .ofList shown)

/-- Keep what a record says, and the log record that goes with it. -/
def keep (g : GovernorTable) : PolicyRecord → Option (GovernorTable × Notice)
  | .missing cpu => some (g, .governorMissing cpu)
  | .saved cpu name => do
    let (slots, shown) ← saveName g.slots cpu name
    some (⟨slots⟩, .governorSaved shown cpu)

/-- What there is to record in a kernel state. -/
def policyRecords (k : Kernel) : Option (List PolicyRecord) := do
  let cpus ← members k.present.toWord
  some ((cpus.filter fun c => k.policyCpu c == some c).map fun c =>
    match k.governor c with
    | none => .missing c
    | some name => .saved c name)

/-- A table of governors that is being filled, with the number of names kept and the log. -/
structure Recording where
  table : GovernorTable
  saved : UInt64 := 0
  log : List Notice := []

/-- Keep what a record says, count it if it has a name, and add to the log. -/
def Recording.step (rec : Recording) (record : PolicyRecord) : Option Recording := do
  let (table, notice) ← keep rec.table record
  let saved ← if record.isSaved then add rec.saved 1 else some rec.saved
  some { table, saved, log := rec.log ++ [notice] }

/-- Record the governors in use, count them, and write the log. -/
def saveAll (g : GovernorTable) (k : Kernel) : Option Recording := do
  (← policyRecords k).foldlM Recording.step { table := g }

/-- The saved governor of a CPU. -/
def governor (g : GovernorTable) (cpu : Nat) : Option (Option String) :=
  if maxCpus ≤ cpu then some none
  else do
    let bytes := (← g.slots[cpu]?).bytes.toList
    let len := bytes.findIdx (· == 0)
    if len = 0 then some none
    else do some (String.fromUTF8? (← front len bytes).toByteArray)

/-- A front of a text that takes no more than some room is a front of what fits there. -/
theorem prefix_fit (h : t <+: s) (ht : size t ≤ n) : t <+: NameSlot.fit n s := by
  induction s generalizing n t with
  | nil => simpa using h
  | cons c s ih =>
    cases t with
    | nil => exact List.nil_prefix
    | cons d t =>
      obtain ⟨rfl, htail⟩ := List.cons_prefix_cons.1 h
      rw [size_cons] at ht
      rw [NameSlot.fit, if_pos (by omega)]
      exact List.cons_prefix_cons.2 ⟨rfl, ih htail (by omega)⟩

theorem size_eq_utf8ByteSize (s : List Char) : size s = (String.ofList s).utf8ByteSize := by
  induction s with
  | nil => rfl
  | cons c s ih =>
    rw [size_cons, ih, String.ofList_cons, String.utf8ByteSize_append,
      String.utf8ByteSize_singleton]

theorem size_fit_le (n : Nat) (s : List Char) : size (NameSlot.fit n s) ≤ n := by
  rw [size_eq_utf8ByteSize]
  exact NameSlot.utf8ByteSize_fit_le n s

theorem size_le_size (h : t <+: s) : size t ≤ size s := by
  obtain ⟨r, rfl⟩ := h
  rw [size_append]
  exact Nat.le_add_right _ _

/-- The loop stops at the end of what fits: offset 0 is at an end, and before that it meets no
end of a front that is longer. -/
theorem truncate_eq (s : List Char) (n : Nat) : truncate s n = some (size (NameSlot.fit n s)) := by
  induction n with
  | zero =>
    have hzero : size (NameSlot.fit 0 s) = 0 := Nat.le_zero.1 (size_fit_le 0 s)
    rw [truncate, takeBytes_zero, Option.isSome_some, if_pos rfl, hzero]
  | succ n ih =>
    rw [truncate]
    split
    · rename_i hcut
      obtain ⟨t, ht⟩ := Option.isSome_iff_exists.1 hcut
      obtain ⟨hpre, hsize⟩ := takeBytes_eq_some_iff.1 ht
      have hle := size_le_size (prefix_fit hpre (Nat.le_of_eq hsize))
      rw [Option.some_inj]
      exact Nat.le_antisymm (hsize ▸ hle) (size_fit_le _ s)
    · rename_i hcut
      have hne : size (NameSlot.fit (n + 1) s) ≠ n + 1 := fun hsize => by
        rw [takeBytes_eq_some_iff.2 ⟨NameSlot.fit_prefix _ s, hsize⟩] at hcut
        exact hcut rfl
      have hle := size_fit_le (n + 1) s
      have hback := size_le_size (prefix_fit (n := n) (NameSlot.fit_prefix (n + 1) s) (by omega))
      have hforth := size_le_size
        (prefix_fit (n := n + 1) (NameSlot.fit_prefix n s) (Nat.le_succ_of_le (size_fit_le n s)))
      rw [ih, Nat.le_antisymm hforth hback]

/-- No more fits than there is. -/
theorem fit_min (n : Nat) (s : List Char) :
    NameSlot.fit (min (size s) n) s = NameSlot.fit n s := by
  have hle : size (NameSlot.fit n s) ≤ min (size s) n :=
    Nat.le_min.2 ⟨size_le_size (NameSlot.fit_prefix n s), size_fit_le n s⟩
  have hback := prefix_fit (NameSlot.fit_prefix (min (size s) n) s)
    (Nat.le_trans (size_fit_le _ s) (Nat.min_le_right _ n))
  exact List.IsPrefix.eq_of_length_le hback (prefix_fit (NameSlot.fit_prefix n s) hle).length_le

theorem length_toUTF8_cut (name : String) : (NameSlot.cut name).toUTF8.data.toList.length =
    size (NameSlot.fit (NameSlot.size - 1) name.toList) := by
  rw [IntLiteral.toList_toUTF8, NameSlot.cut, String.toList_ofList, length_flatMap_utf8EncodeChar]

/-- The bytes of a name up to where it is cut are the bytes of what is left of it. -/
theorem front_toUTF8 (name : String) :
    front (size (NameSlot.fit (NameSlot.size - 1) name.toList)) name.toUTF8.data.toList =
      some (NameSlot.cut name).toUTF8.data.toList := by
  obtain ⟨rest, hrest⟩ := NameSlot.fit_prefix (NameSlot.size - 1) name.toList
  have hbytes : name.toUTF8.data.toList =
      (NameSlot.cut name).toUTF8.data.toList ++ rest.flatMap String.utf8EncodeChar := by
    rw [IntLiteral.toList_toUTF8, IntLiteral.toList_toUTF8, NameSlot.cut, String.toList_ofList,
      ← List.flatMap_append, hrest]
  rw [← length_toUTF8_cut, hbytes, front_eq (by simp), List.take_left]

/-- What is left of a name fits into a slot, with a NUL behind it. -/
theorem copy_toUTF8 (name : String) :
    copy NameSlot.empty.bytes (size (NameSlot.fit (NameSlot.size - 1) name.toList))
      (NameSlot.cut name).toUTF8.data.toList = some (NameSlot.ofName name).bytes := by
  have hle := Nat.le_trans (size_fit_le (NameSlot.size - 1) name.toList) (Nat.sub_le _ 1)
  rw [copy, if_pos ⟨hle, length_toUTF8_cut name⟩, Option.some_inj, NameSlot.ofName]
  congr 1
  funext i
  have hzero : NameSlot.empty.bytes.get i = 0 := Vector.getElem_replicate i.isLt
  rw [hzero, List.getD_eq_getElem?_getD, Array.getElem?_toList, ← Array.getD_eq_getD_getElem?]

/-- A name is cut between two characters, and what is left fits into a slot. -/
theorem saveName_eq {slots : Vector NameSlot maxCpus} {cpu : Nat} (h : cpu < maxCpus)
    (name : String) :
    saveName slots cpu name = some (slots.set cpu (.ofName name) h, NameSlot.cut name) := by
  have htake : takeBytes (size (NameSlot.fit (NameSlot.size - 1) name.toList)) name.toList =
      some (NameSlot.fit (NameSlot.size - 1) name.toList) :=
    takeBytes_eq_some_iff.2 ⟨NameSlot.fit_prefix _ _, rfl⟩
  unfold saveName
  rw [truncate_eq, fit_min]
  simp only [Option.bind_eq_bind, Option.bind_some, front_toUTF8, copy_toUTF8, htake, put_eq h]
  rfl

/-- The CPU that a record is about. -/
def cpuOf : PolicyRecord → Nat
  | .missing cpu => cpu
  | .saved cpu _ => cpu

theorem keep_eq {record : PolicyRecord} (h : cpuOf record < maxCpus) :
    keep g record = some (g.keep record, record.notice) := by
  cases record with
  | missing cpu => rfl
  | saved cpu name =>
    have hcpu : cpu < maxCpus := h
    have hset : g.slots.setIfInBounds cpu (.ofName name) = g.slots.set cpu (.ofName name) hcpu := by
      apply Vector.ext
      intro i hi
      rw [Vector.getElem_setIfInBounds, Vector.getElem_set]
    rw [keep, saveName_eq hcpu, GovernorTable.keep, hset]
    rfl

theorem policyRecords_eq (k : Kernel) : policyRecords k = some k.policyRecords := by
  rw [policyRecords, members_toWord]
  rfl

theorem cpuOf_lt_of_mem {record : PolicyRecord} (h : record ∈ k.policyRecords) :
    cpuOf record < maxCpus := by
  obtain ⟨c, hc, rfl⟩ := List.mem_map.1 h
  have hlt := CpuMask.lt_of_mem (CpuMask.mem_toList.1 (List.mem_filter.1 hc).1)
  cases hg : k.governor c <;> exact hlt

/-- There is at most one record for each CPU. -/
theorem length_policyRecords_le (k : Kernel) : k.policyRecords.length ≤ maxCpus := by
  rw [Kernel.policyRecords, List.length_map]
  exact Nat.le_trans (List.length_filter_le _ _)
    (Nat.le_trans (List.length_filter_le _ _) (Nat.le_of_eq List.length_range))

/-- The recording after some records. -/
def Recording.after (g : GovernorTable) (done : List PolicyRecord) : Recording where
  table := done.foldl GovernorTable.keep g
  saved := .ofNat (done.countP PolicyRecord.isSaved)
  log := done.map PolicyRecord.notice

/-- A record more is kept, counted and put into the log. -/
theorem Recording.step_after {done : List PolicyRecord} {record : PolicyRecord}
    (h : cpuOf record < maxCpus) (hn : done.length + 1 < UInt64.size) :
    (after g done).step record = some (after g (done ++ [record])) := by
  have hcount : done.countP PolicyRecord.isSaved ≤ done.length := List.countP_le_length
  unfold step after
  rw [keep_eq h, Option.bind_eq_bind, Option.bind_some]
  cases hs : record.isSaved with
  | false => simp [hs]
  | true =>
    have hadd : add (.ofNat (done.countP PolicyRecord.isSaved)) 1 =
        some (.ofNat (done.countP PolicyRecord.isSaved + 1)) :=
      add_ofNat _ 1 (by omega)
    simp [hs, hadd]

theorem Recording.foldlM_after {done l : List PolicyRecord} (h : ∀ r ∈ l, cpuOf r < maxCpus)
    (hn : done.length + l.length < UInt64.size) :
    l.foldlM step (after g done) = some (after g (done ++ l)) := by
  induction l generalizing done with
  | nil => simp
  | cons record l ih =>
    obtain ⟨hrecord, hl⟩ := List.forall_mem_cons.1 h
    rw [List.length_cons] at hn
    rw [List.foldlM_cons, step_after hrecord (by omega), Option.bind_eq_bind, Option.bind_some,
      ih hl (by rw [List.length_append, List.length_singleton]; omega), List.append_assoc,
      List.singleton_append]

theorem saveAll_eq (g : GovernorTable) (k : Kernel) :
    saveAll g k = some
      { table := g.saveAll k
        saved := .ofNat k.governorCount
        log := k.policyRecords.map PolicyRecord.notice } := by
  have hlength : ([] : List PolicyRecord).length + k.policyRecords.length < UInt64.size := by
    rw [List.length_nil, Nat.zero_add]
    exact Nat.lt_of_le_of_lt (length_policyRecords_le k) (by decide)
  rw [saveAll, policyRecords_eq]
  exact Recording.foldlM_after (fun record h => cpuOf_lt_of_mem h) hlength

/-- The slot of a CPU is cut where its name ends. -/
theorem governor_eq (g : GovernorTable) (cpu : Nat) : governor g cpu = some (g.get? cpu) := by
  unfold governor GovernorTable.get?
  split
  · rename_i hcpu
    rw [Vector.getElem?_eq_none hcpu]
    rfl
  · rename_i hcpu
    rw [Vector.getElem?_eq_getElem (Nat.not_le.1 hcpu), Option.bind_eq_bind, Option.bind_some,
      Option.bind_some]
    have htake := take_findIdx_eq g.slots[cpu].bytes.toList
    have hle : g.slots[cpu].bytes.toList.findIdx (· == 0) ≤ g.slots[cpu].bytes.toList.length :=
      List.findIdx_le_length
    dsimp only
    rw [front_eq hle, NameSlot.name?, ← htake, Option.bind_eq_bind, Option.bind_some]
    split
    · rename_i hzero
      simp [hzero]
    · rename_i hpos
      have hempty : (g.slots[cpu].bytes.toList.take
          (g.slots[cpu].bytes.toList.findIdx (· == 0))).isEmpty = false := by
        rw [List.isEmpty_eq_false_iff, ← List.length_pos_iff, List.length_take]
        omega
      rw [hempty, if_neg Bool.false_ne_true]

end Governors

end Guarded
end CpuSteward
