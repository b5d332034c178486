import CpuSteward.Load.Gate

/-!
# The policy timer

The hardware ticks far more often than the load monitor has to look at the load.
The timer lets one tick through and then none before its deadline, which it sets
a period ahead each time.  A period that is zero or negative counts as one
millisecond.

The deadline is kept in one word, in which 0 means that there is none yet.  A period
is never empty and the sum stops at the greatest word, so no tick sets a deadline
that could be taken for none.

## Main results

* `PolicyTimer.due_iff`: when the timer lets a tick through.
* `PolicyTimer.satAdd_periodNanos_ne_zero`: no deadline is taken for none.
* `PolicyTimer.poll_of_due`, `PolicyTimer.poll_of_not_due`: what a tick leads to.
-/

namespace CpuSteward

/-- The moment before which no tick is let through. -/
@[ext]
structure PolicyTimer where
  /-- The deadline, once a tick was let through. -/
  deadline : Option UInt64 := none
  deriving DecidableEq, Inhabited

namespace PolicyTimer

/-- A period in nanoseconds, at least one millisecond. -/
def periodNanos (ms : Int32) : UInt64 := .ofNat (max ms.toInt.toNat 1 * nanosPerMilli)

/-- Whether a tick at `now` is let through. -/
def due (t : PolicyTimer) (now : UInt64) : Bool := t.deadline.all fun deadline => deadline ≤ now

/-- The timer with a deadline, in which 0 stands for none. -/
def armed (deadline : UInt64) : PolicyTimer := ⟨if deadline = 0 then none else some deadline⟩

/-- Offer the tick at `now` to the timer, under a period of `ms` milliseconds. -/
def poll (t : PolicyTimer) (now : UInt64) (ms : Int32) : Bool × PolicyTimer :=
  if t.due now then (true, armed (satAdd now (periodNanos ms))) else (false, t)

theorem toNat_periodNanos (ms : Int32) :
    (periodNanos ms).toNat = max ms.toInt.toNat 1 * nanosPerMilli := by
  have := ms.toInt_lt
  rw [periodNanos, UInt64.toNat_ofNat', nanosPerMilli]
  omega

/-- A deadline is a period ahead of some tick, so it is never 0. -/
theorem satAdd_periodNanos_ne_zero (now : UInt64) (ms : Int32) :
    satAdd now (periodNanos ms) ≠ 0 := by
  intro h
  have hword := congrArg UInt64.toNat h
  rw [toNat_satAdd, toNat_periodNanos, nanosPerMilli, UInt64.toNat_zero] at hword
  omega

theorem armed_of_ne_zero {deadline : UInt64} (h : deadline ≠ 0) :
    armed deadline = ⟨some deadline⟩ := by
  rw [armed, if_neg h]

theorem due_iff {t : PolicyTimer} {now : UInt64} :
    t.due now = true ↔ ∀ deadline, t.deadline = some deadline → deadline.toNat ≤ now.toNat := by
  unfold due
  cases t.deadline with
  | none => simp
  | some d => simp [UInt64.le_iff_toNat_le]

theorem poll_of_due {t : PolicyTimer} {now : UInt64} (h : t.due now = true) (ms : Int32) :
    t.poll now ms = (true, ⟨some (satAdd now (periodNanos ms))⟩) := by
  rw [poll, if_pos h, armed_of_ne_zero (satAdd_periodNanos_ne_zero now ms)]

theorem poll_of_not_due {t : PolicyTimer} {now : UInt64} (h : t.due now = false) (ms : Int32) :
    t.poll now ms = (false, t) := by
  rw [poll, h, if_neg Bool.false_ne_true]

@[simp] theorem fst_poll (t : PolicyTimer) (now : UInt64) (ms : Int32) :
    (t.poll now ms).1 = t.due now := by
  cases h : t.due now with
  | true => rw [poll_of_due h]
  | false => rw [poll_of_not_due h]

end PolicyTimer
end CpuSteward
