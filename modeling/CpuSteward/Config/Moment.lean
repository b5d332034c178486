import CpuSteward.Text.IntLiteral

/-!
# Moments

A moment is written as a date, as a time of day, or as both with `T`, `t` or a blank
between them.  Only where both are there may an offset from universal time follow.

## Main definitions

* `Moment.afterDate?`, `Moment.afterTime?`: the rest of a text behind its first part.
* `Moment.isOffset`, `Moment.isMoment`: whether a text is an offset or a moment.
-/

namespace CpuSteward.Config.Moment

/-- The number that two decimal digits give, and the rest of the text. -/
def twoDigits? : List Char → Option (Nat × List Char)
  | a :: b :: s => (IntLiteral.magnitude? 10 [a, b]).map fun n => (n, s)
  | _ => none

/-- The rest of a text behind a certain character. -/
def after? (c : Char) : List Char → Option (List Char)
  | [] => none
  | d :: s => if d = c then some s else none

/-- How many days a month has. -/
def daysIn (year month : Nat) : Nat :=
  if month = 2 then
    if year % 4 = 0 ∧ (year % 100 ≠ 0 ∨ year % 400 = 0) then 29 else 28
  else if month = 4 ∨ month = 6 ∨ month = 9 ∨ month = 11 then 30
  else 31

/-- The rest of a text behind a date, which has four digits for the year, two for the
month and two for the day, with dashes between. -/
def afterDate? (s : List Char) : Option (List Char) := do
  let (century, s) ← twoDigits? s
  let (year, s) ← twoDigits? s
  let s ← after? '-' s
  let (month, s) ← twoDigits? s
  let s ← after? '-' s
  let (day, s) ← twoDigits? s
  if 1 ≤ month ∧ month ≤ 12 ∧ 1 ≤ day ∧ day ≤ daysIn (100 * century + year) month then some s
  else none

/-- The rest of a text behind the fraction of a second, which may be absent. -/
def afterFraction? : List Char → Option (List Char)
  | '.' :: s => if (s.takeWhile Char.isDigit).isEmpty then none else some (s.dropWhile Char.isDigit)
  | s => some s

/-- The rest of a text behind a time of day, which has two digits each for the hour, the
minute and the second, with colons between.  Second 60 is allowed, for leap seconds. -/
def afterTime? (s : List Char) : Option (List Char) := do
  let (hour, s) ← twoDigits? s
  let s ← after? ':' s
  let (minute, s) ← twoDigits? s
  let s ← after? ':' s
  let (second, s) ← twoDigits? s
  if hour ≤ 23 ∧ minute ≤ 59 ∧ second ≤ 60 then afterFraction? s else none

/-- Whether a text is the hours and minutes of an offset, which has two digits for each
with a colon between. -/
def isSpan (s : List Char) : Bool :=
  match (do
    let (hours, s) ← twoDigits? s
    let s ← after? ':' s
    let (minutes, s) ← twoDigits? s
    if hours ≤ 23 ∧ minutes ≤ 59 then some s else none) with
  | some s => s.isEmpty
  | none => false

/-- Whether a text is an offset from universal time, which may be absent. -/
def isOffset : List Char → Bool
  | [] => true
  | c :: s => if c = 'Z' || c = 'z' then s.isEmpty else (c = '+' || c = '-') && isSpan s

/-- Whether a text is a moment. -/
def isMoment (s : List Char) : Bool :=
  if s[2]? = some ':' then afterTime? s = some []
  else
    match afterDate? s with
    | none => false
    | some [] => true
    | some (c :: s) => (c = 'T' || c = 't' || c = ' ') && (afterTime? s).any isOffset

end CpuSteward.Config.Moment
