import CpuSteward.Config.Number
import CpuSteward.Config.Value

/-!
# Configuration files

A configuration file is read line by line.  A line is blank, holds a comment,
declares a table (`[name]`), or gives a key a value (`name = value`); a comment
may end any line.  Keys may be dotted, and quoted where they have other characters
than letters, digits, `-` and `_`.  Values are numbers, truth values, quoted
texts, arrays and inline tables, each on one line.  How deep values nest and how many
names a key has is bounded by `Reader.maxDepth`; a file that goes further is malformed.

This is the part of TOML that such files are written in.  The rest of it counts as
malformed here: arrays of tables (`[[name]]`), texts in three quotes, dates and times
without quotes, and arrays that go over several lines.  What is generated from a
configuration does not depend on the reader that it comes from, see
`Generated.ofReader`.

## Main definitions

* `Reader.key`, `Reader.value`: keys and values, each with the rest of the line.
* `Statement.ofLine?`: what a line says.
* `Document.read?`: the table that a file describes.
-/

namespace CpuSteward.Config

namespace Reader

/-- Skip blanks and tabs. -/
def skip (s : List Char) : List Char := s.dropWhile fun c => c = ' ' || c = '\t'

/-- Whether a character may stand in a text or a comment: a tab, and all that is no
control character of ASCII. -/
def isTextual (c : Char) : Bool := c = '\t' || (0x20 ≤ c.toNat && c.toNat ≠ 0x7F)

/-- Whether a character may stand in a key without quotes. -/
def isBare (c : Char) : Bool := c.isAlphanum || c = '-' || c = '_'

/-- Whether a character may stand in a number or a truth value. -/
def isWord (c : Char) : Bool := c.isAlphanum || c = '-' || c = '_' || c = '+' || c = '.'

/-- The character that a backslash and one letter stand for. -/
def escape? : Char → Option Char
  | 'b' => some '\x08'
  | 't' => some '\t'
  | 'n' => some '\n'
  | 'f' => some '\x0C'
  | 'r' => some '\r'
  | '"' => some '"'
  | '\\' => some '\\'
  | _ => none

/-- The character whose number is given in hexadecimal. -/
def numbered? (digits : List Char) : Option Char :=
  (IntLiteral.magnitude? 16 digits).bind fun n =>
    if n.isValidChar then some (Char.ofNat n) else none

/-- A text in double quotes, from behind the opening one. -/
def quoted : List Char → Option (List Char × List Char)
  | [] => none
  | '"' :: s => some ([], s)
  | '\\' :: 'u' :: a :: b :: c :: d :: s => do
    let x ← numbered? [a, b, c, d]
    let (text, rest) ← quoted s
    some (x :: text, rest)
  | '\\' :: 'U' :: a :: b :: c :: d :: e :: f :: g :: h :: s => do
    let x ← numbered? [a, b, c, d, e, f, g, h]
    let (text, rest) ← quoted s
    some (x :: text, rest)
  | '\\' :: c :: s => do
    let x ← escape? c
    let (text, rest) ← quoted s
    some (x :: text, rest)
  | c :: s => do
    let (text, rest) ← quoted s
    if isTextual c then some (c :: text, rest) else none

/-- A text in single quotes, from behind the opening one. -/
def literal : List Char → Option (List Char × List Char)
  | [] => none
  | '\'' :: s => some ([], s)
  | c :: s => do
    let (text, rest) ← literal s
    if isTextual c then some (c :: text, rest) else none

/-- One name of a key. -/
def name : List Char → Option (String × List Char)
  | '"' :: s => (quoted s).map fun (text, rest) => (String.ofList text, rest)
  | '\'' :: s => (literal s).map fun (text, rest) => (String.ofList text, rest)
  | s =>
    let text := s.takeWhile isBare
    if text.isEmpty then none else some (String.ofList text, s.dropWhile isBare)

/-- How many arrays and inline tables may stand inside each other, and how many names
a key may have. -/
def maxDepth : Nat := 79

/-- A key of at most `count` names: all but the last, the last, and the rest. -/
def keyWithin : Nat → List Char → Option (List String × String × List Char)
  | 0, _ => none
  | count + 1, s => do
    let (first, rest) ← name (skip s)
    match skip rest with
    | '.' :: rest =>
      let (way, last, rest) ← keyWithin count rest
      some (first :: way, last, rest)
    | rest => some ([], first, rest)

/-- A key: all names but the last, the last, and the rest. -/
def key (s : List Char) : Option (List String × String × List Char) := keyWithin maxDepth s

/-- A number or a truth value. -/
def word (s : List Char) : Option (Value × List Char) :=
  let text := s.takeWhile isWord
  let rest := s.dropWhile isWord
  if text = "true".toList then some (.boolean true, rest)
  else if text = "false".toList then some (.boolean false, rest)
  else
    match Number.integer? text with
    | some n => some (.integer n, rest)
    | none =>
      if Number.isFloat text then some (.float (String.ofList text), rest) else none

/-- At most `count` elements of an array, up to its closing bracket; `item` reads one. -/
def elements (item : List Char → Option (Value × List Char)) :
    Nat → List Char → Option (List Value × List Char)
  | 0, _ => none
  | count + 1, s =>
    match s with
    | ']' :: rest => some ([], rest)
    | s => do
      let (v, rest) ← item s
      match skip rest with
      | ']' :: rest => some ([v], rest)
      | ',' :: rest =>
        let (vs, rest) ← elements item count (skip rest)
        some (v :: vs, rest)
      | _ => none

/-- At most `count` entries of an inline table, up to its closing brace; `item` reads
the value of one. -/
def members (item : List Char → Option (Value × List Char)) :
    Nat → List Char → Entries → Option (Entries × List Char)
  | 0, _, _ => none
  | count + 1, s, es => do
    let (way, last, rest) ← key s
    match rest with
    | '=' :: rest =>
      let (v, rest) ← item (skip rest)
      let es ← es.insert? v last way
      match skip rest with
      | '}' :: rest => some (es, rest)
      | ',' :: rest => members item count rest es
      | _ => none
    | _ => none

/-- A value in which at most `depth` arrays and inline tables stand inside each other,
and none of them has more than `count` parts. -/
def valueWithin (count : Nat) : Nat → List Char → Option (Value × List Char)
  | _, '"' :: s => (quoted s).map fun (text, rest) => (.string (String.ofList text), rest)
  | _, '\'' :: s => (literal s).map fun (text, rest) => (.string (String.ofList text), rest)
  | 0, '[' :: _ => none
  | 0, '{' :: _ => none
  | depth + 1, '[' :: s =>
    (elements (valueWithin count depth) count (skip s)).map fun (vs, rest) => (.array vs, rest)
  | depth + 1, '{' :: s =>
    match skip s with
    | '}' :: rest => some (.table .inline [], rest)
    | s =>
      (members (valueWithin count depth) count s []).map fun (es, rest) =>
        (.table .inline es, rest)
  | _, s => word s

/-- A value.  It has fewer parts than characters, so only its depth is bounded. -/
def value (s : List Char) : Option (Value × List Char) := valueWithin s.length maxDepth s

/-- Whether nothing but blanks and a comment is left of a line. -/
def isEnd (s : List Char) : Bool :=
  match skip s with
  | [] => true
  | '#' :: comment => comment.all isTextual
  | _ => false

end Reader

/-- What a line says. -/
inductive Statement where
  /-- Nothing. -/
  | nothing
  /-- The entries that follow belong to this table. -/
  | header (way : List String) (key : String)
  /-- A key has this value. -/
  | entry (way : List String) (key : String) (v : Value)

/-- Read a line. -/
def Statement.ofLine? (line : List Char) : Option Statement :=
  if Reader.isEnd line then some .nothing
  else
    match Reader.skip line with
    | '[' :: s => do
      let (way, last, rest) ← Reader.key s
      match rest with
      | ']' :: rest => if Reader.isEnd rest then some (.header way last) else none
      | _ => none
    | s => do
      let (way, last, rest) ← Reader.key s
      match rest with
      | '=' :: rest =>
        let (v, rest) ← Reader.value (Reader.skip rest)
        if Reader.isEnd rest then some (.entry way last v) else none
      | _ => none

namespace Document

/-- The lines of a text; a line break is a line feed, and a carriage return right
before it belongs to it. -/
def lines : List Char → List (List Char)
  | [] => [[]]
  | '\r' :: '\n' :: s => [] :: lines s
  | '\n' :: s => [] :: lines s
  | c :: s =>
    match lines s with
    | [] => [[c]]
    | line :: rest => (c :: line) :: rest

/-- The table so far, and the way to the one that entries belong to. -/
structure State where
  /-- All entries so far. -/
  entries : Entries := []
  /-- The names on the way to the current table. -/
  current : List String := []

/-- Take one statement in. -/
def State.take? (st : State) : Statement → Option State
  | .nothing => some st
  | .header way key =>
    (Entries.declare? key way st.entries).map fun entries => ⟨entries, way ++ [key]⟩
  | .entry way key v =>
    (Entries.update? (Entries.insert? v key way) st.current st.entries).map fun entries =>
      { st with entries }

/-- Take the lines in, one after the other. -/
def takeLines? : List (List Char) → State → Option State
  | [], st => some st
  | line :: rest, st =>
    (Statement.ofLine? line).bind fun statement =>
      (st.take? statement).bind fun st => takeLines? rest st

/-- The text without a byte order mark in front. -/
def dropMark : List Char → List Char
  | '\uFEFF' :: s => s
  | s => s

/-- The table that a file describes, unless it is malformed. -/
def read? (text : String) : Option Value :=
  (takeLines? (lines (dropMark text.toList)) {}).bind fun st =>
    (Value.table .declared st.entries).settle?

end Document
end CpuSteward.Config
