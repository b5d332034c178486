import CpuSteward.Text.IntLiteral
import Mathlib.Data.List.Basic

/-!
# Quoted texts in a source

In a source a text stands between double quotes.  A quote or a backslash inside it is written
with a backslash in front, and more such escapes stand for characters that are hard to write.
A line feed may stand for itself; a carriage return counts only together with the line feed
behind it, as one line break.

The reader goes through the characters one by one.  What it reads between two quotes is the
very text between them exactly if the text has no quote, no backslash and no carriage return.

## Main definitions

* `Source.Mode`, `Source.Mode.step` — where the reader is, and what it does at a character.
* `Source.scan`, `Source.text?` — a text from behind its opening quote, and a whole literal.
* `Source.Plain` — the texts that can stand between quotes just as they are.

## Main results

* `Source.scan_of_plain` — a plain text is read as itself.
* `Source.reads_of_scan` — of a text that is not plain something else is read.
* `Source.scan_eq_some_iff` — **a text is read as itself exactly if it is plain.**
-/

namespace CpuSteward.Config
namespace Source

/-! ### The reader -/

/-- Where the reader of a text is. -/
inductive Mode where
  /-- At a character of the text. -/
  | plain
  /-- Behind a backslash. -/
  | escape
  /-- Behind a backslash and an `x`, or one digit further. -/
  | byte (high : Option Nat)
  /-- Behind a backslash and a `u`. -/
  | brace
  /-- Behind the brace, with the value of the digits so far and their number. -/
  | code (value count : Nat)
  /-- Behind a backslash at the end of a line, where blanks are skipped. -/
  | gap
  /-- Behind a carriage return, in the text or after a backslash. -/
  | lineFeed (escaped : Bool)

/-- What the reader does at a character. -/
inductive Move where
  /-- The text ends here. -/
  | stop
  /-- The text is malformed. -/
  | fail
  /-- The character stands for nothing yet. -/
  | go (mode : Mode)
  /-- The text goes on with a character. -/
  | emit (c : Char)

/-- The move at a character of the text. -/
def Move.atText (c : Char) : Move :=
  if c = '"' then .stop
  else if c = '\\' then .go .escape
  else if c = '\r' then .go (.lineFeed false)
  else .emit c

/-- The move behind a backslash. -/
def Move.atEscape : Char → Move
  | 'n' => .emit '\n'
  | 'r' => .emit '\r'
  | 't' => .emit '\t'
  | '0' => .emit '\x00'
  | '\\' => .emit '\\'
  | '\'' => .emit '\''
  | '"' => .emit '"'
  | 'x' => .go (.byte none)
  | 'u' => .go .brace
  | '\n' => .go .gap
  | '\r' => .go (.lineFeed true)
  | _ => .fail

/-- The move at a hexadecimal digit. -/
def Move.atDigit (c : Char) (next : Nat → Move) : Move :=
  match IntLiteral.digit? 16 c with
  | some d => next d
  | none => .fail

/-- The move at a character, which may mean something else in every mode. -/
def Mode.step : Mode → Char → Move
  | .plain, c => .atText c
  | .escape, c => .atEscape c
  | .byte none, c => .atDigit c fun d => .go (.byte (some d))
  | .byte (some high), c => .atDigit c fun d =>
    if 16 * high + d < 128 then .emit (.ofNat (16 * high + d)) else .fail
  | .brace, c => if c = '{' then .go (.code 0 0) else .fail
  | .code value count, c =>
    if c = '}' then if count ≠ 0 ∧ value.isValidChar then .emit (.ofNat value) else .fail
    else if c = '_' ∧ count ≠ 0 then .go (.code value count)
    else .atDigit c fun d => if count < 6 then .go (.code (16 * value + d) (count + 1)) else .fail
  | .gap, c => if c = ' ' ∨ c = '\t' ∨ c = '\n' ∨ c = '\r' then .go .gap else .atText c
  | .lineFeed escaped, c =>
    if c = '\n' then if escaped then .go .gap else .emit '\n' else .fail

/-- A text up to its closing quote, and what follows that quote. -/
def scan : Mode → List Char → Option (List Char × List Char)
  | _, [] => none
  | mode, c :: s =>
    match mode.step c with
    | .stop => some ([], s)
    | .fail => none
    | .go mode => scan mode s
    | .emit d => (scan .plain s).map fun (text, rest) => (d :: text, rest)

/-- The text that a whole literal stands for. -/
def text? : List Char → Option (List Char)
  | '"' :: s => (scan .plain s).bind fun (text, rest) => if rest = [] then some text else none
  | _ => none

/-- A text without the three characters that mean something else in a literal. -/
def Plain (text : List Char) : Prop := ∀ c ∈ text, c ≠ '"' ∧ c ≠ '\\' ∧ c ≠ '\r'

instance (text : List Char) : Decidable (Plain text) :=
  List.decidableBAll _ text

/-! ### Moves -/

variable {c d : Char} {mode mode' : Mode} {text value rest rest' : List Char}

theorem atText_eq_emit_iff : Move.atText c = .emit d ↔ (c ≠ '"' ∧ c ≠ '\\' ∧ c ≠ '\r') ∧ d = c := by
  unfold Move.atText
  split
  · simp_all
  split
  · simp_all
  split
  · simp_all
  · simp_all [eq_comm]

/-- A quote ends the text, stands for itself behind a backslash, and is an error elsewhere. -/
theorem step_quote (mode : Mode) :
    mode.step '"' = .stop ∨ mode.step '"' = .fail ∨ mode.step '"' = .emit '"' := by
  have hdigit : ∀ next, Move.atDigit '"' next = .fail := fun next => by
    have hnone : IntLiteral.digit? 16 '"' = none := by decide
    rw [Move.atDigit, hnone]
  cases mode with
  | plain => exact .inl rfl
  | escape => exact .inr (.inr rfl)
  | byte high =>
    cases high with
    | none => exact .inr (.inl (hdigit fun d => .go (.byte (some d))))
    | some high => exact .inr (.inl (hdigit fun d =>
        if 16 * high + d < 128 then .emit (.ofNat (16 * high + d)) else .fail))
  | brace => exact .inr (.inl rfl)
  | code value count =>
    refine .inr (.inl ?_)
    rw [Mode.step, if_neg (by decide), if_neg (by simp), hdigit]
  | gap => exact .inl rfl
  | lineFeed escaped => exact .inr (.inl rfl)

theorem ne_quote_of_go (h : mode.step c = .go mode') : c ≠ '"' := by
  rintro rfl
  rcases step_quote mode with hstep | hstep | hstep <;> cases hstep.symm.trans h

theorem eq_quote_of_emit (h : mode.step '"' = .emit d) : d = '"' := by
  rcases step_quote mode with hstep | hstep | hstep <;> cases hstep.symm.trans h
  rfl

/-! ### Plain texts -/

/-- A plain text is read as itself. -/
theorem scan_of_plain (h : Plain text) :
    scan .plain (text ++ '"' :: rest) = some (text, rest) := by
  induction text with
  | nil => rfl
  | cons c text ih =>
    obtain ⟨hc, htext⟩ := List.forall_mem_cons.1 h
    have hstep : Mode.plain.step c = .emit c := atText_eq_emit_iff.2 ⟨hc, rfl⟩
    rw [List.cons_append, scan, hstep]
    simp only [ih htext, Option.map_some]

/-! ### Other texts -/

/-- What is read is not longer than the text up to the quote, or has its first quote not later
than the text.  The second happens where a backslash hides the closing quote. -/
def Behind (value text : List Char) : Prop :=
  value.length ≤ text.length ∨ value.idxOf '"' ≤ text.idxOf '"'

/-- The same with one character to spare, so that what is read is not the text. -/
def FarBehind (value text : List Char) : Prop :=
  value.length < text.length ∨ value.idxOf '"' < text.idxOf '"'

theorem FarBehind.ne (h : FarBehind value text) : value ≠ text := by
  rintro rfl
  exact h.elim (Nat.lt_irrefl _) (Nat.lt_irrefl _)

theorem FarBehind.behind (h : FarBehind value text) : Behind value text :=
  h.imp Nat.le_of_lt Nat.le_of_lt

/-- A character that stands for nothing is one to spare, unless it is a quote. -/
theorem Behind.cons (h : Behind value text) (hc : c ≠ '"') : FarBehind value (c :: text) := by
  refine h.imp (fun hlength => ?_) fun hquote => ?_
  · rw [List.length_cons]
    omega
  · rw [List.idxOf_cons, (beq_eq_false_iff_ne).2 hc, cond_false]
    omega

theorem Behind.emit (h : Behind value text) (hd : c = '"' → d = '"') :
    Behind (d :: value) (c :: text) := by
  refine h.imp (fun hlength => ?_) fun hquote => ?_
  · simpa using hlength
  · rw [List.idxOf_cons, List.idxOf_cons]
    by_cases hdq : d = '"'
    · simp [hdq]
    · rw [(beq_eq_false_iff_ne).2 hdq, (beq_eq_false_iff_ne).2 (mt hd hdq), cond_false, cond_false]
      omega

theorem FarBehind.emit (h : FarBehind value text) (hc : c ≠ '"') :
    FarBehind (c :: value) (c :: text) := by
  refine h.imp (fun hlength => ?_) fun hquote => ?_
  · simpa using hlength
  · rw [List.idxOf_cons, List.idxOf_cons, (beq_eq_false_iff_ne).2 hc, cond_false, cond_false]
    omega

/-- How what is read in some mode relates to the text up to the quote. -/
inductive Reads (rest : List Char) (mode : Mode) (text value rest' : List Char) : Prop where
  /-- It is the text. -/
  | whole (hmode : mode = .plain) (htext : Plain text) (hvalue : value = text)
    (hrest : rest' = rest)
  /-- It is another one. -/
  | other (h : FarBehind value text)
  /-- Characters that stand for nothing were read before, so it lags in any case. -/
  | late (hmode : mode ≠ .plain) (h : Behind value text)

theorem Reads.behind (h : Reads rest mode text value rest') : Behind value text := by
  cases h with
  | whole hmode htext hvalue hrest => exact .inl (Nat.le_of_eq (congrArg List.length hvalue))
  | other h => exact h.behind
  | late hmode h => exact h

/-- The reader comes to the closing quote. -/
theorem reads_nil (h : scan mode ('"' :: rest) = some (value, rest')) :
    Reads rest mode [] value rest' := by
  rw [scan] at h
  rcases step_quote mode with hstep | hstep | hstep
  · rw [hstep] at h
    obtain ⟨rfl, rfl⟩ : [] = value ∧ rest = rest' := by simpa using h
    by_cases hmode : mode = .plain
    · exact .whole hmode (List.forall_mem_nil _) rfl rfl
    · exact .late hmode (.inl (Nat.le_refl _))
  · rw [hstep] at h
    cases h
  · rw [hstep] at h
    obtain ⟨⟨value, rest'⟩, -, he⟩ := Option.map_eq_some_iff.1 h
    obtain ⟨rfl, rfl⟩ : '"' :: value = _ ∧ rest' = _ := by simpa using he
    -- the quote is hidden by a backslash, so a mark was read that stands for nothing
    have hmode : mode ≠ .plain := by
      rintro rfl
      cases hstep
    exact .late hmode (.inr (by simp))

theorem reads_of_scan (h : scan mode (text ++ '"' :: rest) = some (value, rest')) :
    Reads rest mode text value rest' := by
  induction text generalizing mode value with
  | nil => exact reads_nil h
  | cons c text ih =>
    rw [List.cons_append, scan] at h
    cases hstep : mode.step c with
    | stop =>
      rw [hstep] at h
      obtain ⟨rfl, -⟩ : [] = value ∧ _ := by simpa using h
      exact .other (.inl (by simp))
    | fail =>
      rw [hstep] at h
      cases h
    | go mode' =>
      rw [hstep] at h
      exact .other ((ih h).behind.cons (ne_quote_of_go hstep))
    | emit d =>
      rw [hstep] at h
      obtain ⟨⟨value, rest'⟩, hrest, he⟩ := Option.map_eq_some_iff.1 h
      obtain ⟨rfl, rfl⟩ : d :: value = _ ∧ rest' = _ := by simpa using he
      have hreads := ih hrest
      by_cases hmode : mode = .plain
      · subst hmode
        obtain ⟨hc, rfl⟩ := atText_eq_emit_iff.1 hstep
        cases hreads with
        | whole _ htext hvalue hrest =>
          exact .whole rfl (List.forall_mem_cons.2 ⟨hc, htext⟩) (congrArg _ hvalue) hrest
        | other hfar => exact .other (hfar.emit hc.1)
        | late hmode _ => exact absurd rfl hmode
      · exact .late hmode (hreads.behind.emit fun hc => eq_quote_of_emit (hc ▸ hstep))

/-- **A text is read as itself exactly if it is plain**, whatever follows the quote behind it. -/
theorem scan_eq_some_iff :
    scan .plain (text ++ '"' :: rest) = some (text, rest') ↔ Plain text ∧ rest' = rest := by
  constructor
  · intro h
    cases reads_of_scan h with
    | whole _ htext _ hrest => exact ⟨htext, hrest⟩
    | other h => exact absurd rfl h.ne
    | late hmode _ => exact absurd rfl hmode
  · rintro ⟨htext, rfl⟩
    exact scan_of_plain htext

/-- A whole literal is read as the text between its quotes exactly if this is plain. -/
theorem text?_quoted_iff : text? ('"' :: (text ++ ['"'])) = some text ↔ Plain text := by
  rw [text?, Option.bind_eq_some_iff]
  constructor
  · rintro ⟨⟨value, rest⟩, hscan, he⟩
    obtain ⟨-, hvalue⟩ := Option.ite_none_right_eq_some.1 he
    cases hvalue
    exact (scan_eq_some_iff.1 hscan).1
  · exact fun h => ⟨_, scan_of_plain h, if_pos rfl⟩

end Source
end CpuSteward.Config
