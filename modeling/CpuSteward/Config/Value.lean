import CpuSteward.Config.Moment

/-!
# Configuration values

A configuration is a tree of tables.  A table knows how it came about, since that
decides what may still be added to it: a table written between braces is closed;
one that a header declares may not be declared again; one that dotted keys made
takes more dotted keys but no header; and one that is only mentioned on the way to
a header may still be declared.

The entries of a table keep the order in which they were added, because the first one
can change what the table is: under `Value.momentKey` it holds the text of a moment,
and the whole table stands for that moment.

## Main definitions

* `Value`, `Entries`: the trees and the contents of a table.
* `Value.get?`: the value under a key.
* `Entries.insert?`: add a value under a dotted key.
* `Entries.declare?`: add a table under a header.
* `Value.settle?`: the tree with its moments made out.
-/

namespace CpuSteward.Config

/-- How a table came about. -/
inductive Origin where
  /-- It was written between braces. -/
  | inline
  /-- A header declares it. -/
  | declared
  /-- A header of another table mentions it. -/
  | mentioned
  /-- A dotted key made it. -/
  | dotted
  deriving DecidableEq, Repr

/-- A value of a configuration. -/
inductive Value where
  /-- An integer. -/
  | integer (n : Int)
  /-- A floating-point number, as it was written. -/
  | float (text : String)
  /-- A truth value. -/
  | boolean (b : Bool)
  /-- A text. -/
  | string (s : String)
  /-- A moment, as it was written. -/
  | moment (text : String)
  /-- A list of values. -/
  | array (elements : List Value)
  /-- A table. -/
  | table (origin : Origin) (entries : List (String × Value))

/-- The contents of a table. -/
abbrev Entries := List (String × Value)

namespace Entries

/-- The value under a key. -/
def get? (es : Entries) (key : String) : Option Value :=
  (es.find? fun e => e.1 == key).map Prod.snd

/-- Put a value under a key, in place of the one that is there. -/
def put (es : Entries) (key : String) (v : Value) : Entries :=
  if es.any fun e => e.1 == key then es.map fun e => if e.1 == key then (key, v) else e
  else es ++ [(key, v)]

/-- Add a value under the key that a way of names ends with.  A table that is not
there yet is made; one that is closed or declared is not touched. -/
def insert? (v : Value) (key : String) : List String → Entries → Option Entries
  | [], es => if (es.get? key).isSome then none else some (es ++ [(key, v)])
  | name :: way, es =>
    match es.get? name with
    | none => (insert? v key way []).map fun sub => es.put name (.table .dotted sub)
    | some (.table .dotted sub) =>
      (insert? v key way sub).map fun sub => es.put name (.table .dotted sub)
    | some (.table .mentioned sub) =>
      if way.isEmpty then none
      else (insert? v key way sub).map fun sub => es.put name (.table .mentioned sub)
    | some _ => none

/-- Declare the table at the end of a way of names.  One that was only mentioned so far
moves behind its siblings. -/
def declare? (key : String) : List String → Entries → Option Entries
  | [], es =>
    match es.get? key with
    | none => some (es ++ [(key, .table .declared [])])
    | some (.table .mentioned sub) =>
      some ((es.filter fun e => e.1 != key) ++ [(key, .table .declared sub)])
    | some _ => none
  | name :: way, es =>
    match es.get? name with
    | none => (declare? key way []).map fun sub => es.put name (.table .mentioned sub)
    | some (.table .inline _) => none
    | some (.table origin sub) =>
      (declare? key way sub).map fun sub => es.put name (.table origin sub)
    | some _ => none

/-- Change the contents of the table that a way of names leads to. -/
def update? (f : Entries → Option Entries) : List String → Entries → Option Entries
  | [], es => f es
  | name :: way, es =>
    match es.get? name with
    | some (.table origin sub) =>
      (update? f way sub).map fun sub => es.put name (.table origin sub)
    | _ => none

end Entries

namespace Value

/-- The value under a key; only a table has any. -/
def get? (key : String) : Value → Option Value
  | table _ es => Entries.get? es key
  | _ => none

/-- The integer that a value is. -/
def integer? : Value → Option Int
  | integer n => some n
  | _ => none

/-- The text that a value is. -/
def string? : Value → Option String
  | string s => some s
  | _ => none

/-- The table without entries. -/
def empty : Value := table .declared []

/-! ### Moments -/

/-- The key that makes a table stand for a moment. -/
def momentKey : String := "$__toml_private_datetime"

/-- The value that makes a table with these entries stand for a moment. -/
def marked? : Entries → Option Value
  | [] => none
  | (key, v) :: _ => if key == momentKey then some v else none

/-- The moment that a value holds the text of. -/
def moment? : Value → Option Value
  | string s => if Moment.isMoment s.toList then some (moment s) else none
  | _ => none

mutual

/-- The tree in which every table that stands for a moment is replaced by it, unless one
of them has no moment under its first key.  The other entries of such a table do not
count. -/
def settle? : Value → Option Value
  | array vs => (settleAll? vs).map array
  | table origin es =>
    match marked? es with
    | some v => v.moment?
    | none => (settleEntries? es).map (table origin)
  | v => some v

/-- The elements of an array with their moments made out. -/
def settleAll? : List Value → Option (List Value)
  | [] => some []
  | v :: vs => (settle? v).bind fun v => (settleAll? vs).map (v :: ·)

/-- The entries of a table with their moments made out. -/
def settleEntries? : List (String × Value) → Option (List (String × Value))
  | [] => some []
  | (key, v) :: es => (settle? v).bind fun v => (settleEntries? es).map ((key, v) :: ·)

end

end Value
end CpuSteward.Config
