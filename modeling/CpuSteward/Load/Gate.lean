import CpuSteward.Saturating

/-!
# The rate limit on passes

A pass may start only when enough time has gone by since the latest one.  The
gate keeps the moment of the latest pass and nothing else; the interval is looked
up anew each time, so a change of it takes effect at once.

The greatest clock reading stands for "never": a pass at that reading leaves no
trace, and the next one is free to start.

## Main results

* `Gate.admits_iff`, `Gate.not_admits_iff`: when a pass may start, in unbounded arithmetic.
-/

namespace CpuSteward

/-- How many nanoseconds a millisecond has. -/
def nanosPerMilli : Nat := 1000000

/-- The moment of the latest pass. -/
@[ext]
structure Gate where
  /-- The clock reading of the latest pass, if there was one. -/
  last : Option UInt64 := none
  deriving DecidableEq, Inhabited

namespace Gate

/-- The clock reading that leaves no trace. -/
def never : UInt64 := 0xFFFFFFFFFFFFFFFF

/-- An interval in nanoseconds; a negative number of milliseconds counts as none. -/
def intervalNanos (ms : Int32) : UInt64 := .ofNat (ms.toInt.toNat * nanosPerMilli)

/-- Whether a pass may start at `now` under an interval of `ms` milliseconds. -/
def admits (g : Gate) (ms : Int32) (now : UInt64) : Bool :=
  match g.last with
  | none => true
  | some last => decide (intervalNanos ms ≤ satSub now last)

/-- The gate after a pass at `now`. -/
def passed (now : UInt64) : Gate := ⟨if now = never then none else some now⟩

theorem toNat_intervalNanos (ms : Int32) :
    (intervalNanos ms).toNat = ms.toInt.toNat * nanosPerMilli := by
  have := ms.toInt_lt
  rw [intervalNanos, UInt64.toNat_ofNat', nanosPerMilli]
  omega

theorem admits_iff {g : Gate} {ms : Int32} {now : UInt64} :
    g.admits ms now = true ↔
      ∀ last, g.last = some last → ms.toInt.toNat * nanosPerMilli ≤ now.toNat - last.toNat := by
  unfold admits
  cases g.last with
  | none => simp
  | some last => simp [UInt64.le_iff_toNat_le, toNat_intervalNanos]

/-- A pass may not start: there was one, and the interval since is not over. -/
theorem not_admits_iff {g : Gate} {ms : Int32} {now : UInt64} :
    g.admits ms now = false ↔
      ∃ last, g.last = some last ∧ now.toNat - last.toNat < ms.toInt.toNat * nanosPerMilli := by
  rw [← Bool.not_eq_true, admits_iff, Classical.not_forall]
  simp

@[simp] theorem last_passed_of_ne {now : UInt64} (h : now ≠ never) :
    (passed now).last = some now := by
  simp [passed, h]

end Gate
end CpuSteward
