import CpuSteward.Proofs.RateLimit

/-!
# The policy timer over a run

The timer keeps a single word.  It still decides as if it had the whole history: a tick
is let through if none was before, or if the period of the latest one that was let
through is over, however the clock went in between and whatever periods came with the
ticks that were held back.  The word is 0 until the first tick is let through and never
again, so a timer that was started is not taken for a fresh one.

The deadline never goes back, not even if the clock does.  So the ticks that are let
through under one period are a period apart, and not many of them fit into a stretch of
time.

## Main definitions

* `Offer` — a tick as it is offered to the timer, and `Offer.horizon`, the deadline it sets.
* `PolicyTimer.after`, `PolicyTimer.through` — the timer after a run of offers, and the
  offers that it let through.

## Main results

* `PolicyTimer.follows_after` — the deadline is that of the latest offer let through.
* `PolicyTimer.pairwise_through` — no offer is let through before the deadline of another.
* `PolicyTimer.paced_by_latest` — **the timer goes by the latest tick that it let through.**
-/

namespace CpuSteward

/-- The hardware tick as it is offered to the timer. -/
structure Offer where
  /-- The clock reading. -/
  now : UInt64
  /-- The period as it stands then, in milliseconds. -/
  ms : Int32
  deriving DecidableEq

namespace Offer

/-- The deadline that the timer sets when it lets the offer through. -/
def deadline (o : Offer) : UInt64 := satAdd o.now (PolicyTimer.periodNanos o.ms)

/-- The deadline in unbounded arithmetic: a period later, or the greatest word. -/
def horizon (o : Offer) : Int :=
  min ((o.now.toNat : Int) + max o.ms.toInt 1 * 1000000) 0xFFFFFFFFFFFFFFFF

theorem toNat_deadline (o : Offer) : (o.deadline.toNat : Int) = o.horizon := by
  rw [deadline, horizon, toNat_satAdd, PolicyTimer.toNat_periodNanos, nanosPerMilli]
  omega

theorem now_le_deadline (o : Offer) : o.now ≤ o.deadline := by
  have hnow := o.now.toNat_lt
  rw [UInt64.le_iff_toNat_le, deadline, toNat_satAdd]
  omega

end Offer

namespace PolicyTimer

variable {t : PolicyTimer} {o : Offer} {offers : List Offer} {latest : Option Offer}

/-- The timer after offers in a row. -/
def after (t : PolicyTimer) : List Offer → PolicyTimer
  | [] => t
  | o :: os => (t.poll o.now o.ms).2.after os

/-- Of offers in a row, those that are let through. -/
def through (t : PolicyTimer) : List Offer → List Offer
  | [] => []
  | o :: os =>
    if (t.poll o.now o.ms).1 then o :: (t.poll o.now o.ms).2.through os
    else (t.poll o.now o.ms).2.through os

theorem after_of_due (h : t.due o.now = true) :
    t.after (o :: offers) = after ⟨some o.deadline⟩ offers := by
  rw [after, poll_of_due h]
  rfl

theorem after_of_not_due (h : t.due o.now = false) :
    t.after (o :: offers) = t.after offers := by
  rw [after, poll_of_not_due h]

theorem through_of_due (h : t.due o.now = true) :
    t.through (o :: offers) = o :: through ⟨some o.deadline⟩ offers := by
  rw [through, poll_of_due h, if_pos rfl]
  rfl

theorem through_of_not_due (h : t.due o.now = false) :
    t.through (o :: offers) = t.through offers := by
  rw [through, poll_of_not_due h, if_neg Bool.false_ne_true]

/-! ### The timer follows the offers -/

/-- The timer keeps the deadline of the latest offer that it let through. -/
def Follows (t : PolicyTimer) (latest : Option Offer) : Prop :=
  t.deadline = latest.map Offer.deadline

/-- The timer follows what it lets through in every run. -/
theorem follows_after (hf : t.Follows latest) (offers : List Offer) :
    (t.after offers).Follows ((t.through offers).getLast?.or latest) := by
  induction offers generalizing t latest with
  | nil => exact hf
  | cons o offers ih =>
    cases hd : t.due o.now with
    | true =>
      have hnext : Follows ⟨some o.deadline⟩ (some o) := rfl
      rw [after_of_due hd, through_of_due hd, List.getLast?_cons]
      have hrest := ih hnext
      -- the last of the rest, or else this offer, hides whatever was latest before
      cases hlast : (through ⟨some o.deadline⟩ offers).getLast? with
      | none => rwa [hlast] at hrest
      | some o' => rwa [hlast] at hrest
    | false =>
      rw [after_of_not_due hd, through_of_not_due hd]
      exact ih hf

/-- A timer lets an offer through if nothing was let through before, or the period of the
latest offer that was is over. -/
theorem Follows.due_iff (hf : t.Follows latest) {now : UInt64} :
    t.due now = true ↔ latest = none ∨ ∃ o ∈ latest, o.horizon ≤ now.toNat := by
  unfold Follows at hf
  rw [PolicyTimer.due_iff, hf]
  cases latest with
  | none => simp
  | some o =>
    have hhorizon := o.toNat_deadline
    simp only [Option.map_some, Option.some.injEq, forall_eq', reduceCtorEq, Option.mem_def,
      exists_eq_left', false_or]
    omega

/-! ### How far ticks are apart -/

/-- No offer is let through before the deadline, and the next deadline is not before the
offer. -/
theorem le_now_of_mem_through {d : UInt64} (hd : t.deadline = some d)
    (ho : o ∈ t.through offers) : d ≤ o.now := by
  induction offers generalizing t d with
  | nil => cases ho
  | cons o' offers ih =>
    cases hdue : t.due o'.now with
    | false =>
      rw [through_of_not_due hdue] at ho
      exact ih hd ho
    | true =>
      have hnow : d ≤ o'.now := UInt64.le_iff_toNat_le.2 (PolicyTimer.due_iff.1 hdue d hd)
      rw [through_of_due hdue] at ho
      rcases List.mem_cons.1 ho with rfl | ho
      · exact hnow
      · exact UInt64.le_trans hnow (UInt64.le_trans o'.now_le_deadline (ih rfl ho))

/-- No offer is let through before the deadline that an earlier one set. -/
theorem pairwise_through (t : PolicyTimer) (offers : List Offer) :
    (t.through offers).Pairwise fun o o' => o.deadline ≤ o'.now := by
  induction offers generalizing t with
  | nil => exact List.Pairwise.nil
  | cons o offers ih =>
    cases hdue : t.due o.now with
    | false =>
      rw [through_of_not_due hdue]
      exact ih t
    | true =>
      rw [through_of_due hdue, List.pairwise_cons]
      exact ⟨fun o' ho' => le_now_of_mem_through rfl ho', ih _⟩

theorem through_subset (t : PolicyTimer) (offers : List Offer) : t.through offers ⊆ offers := by
  induction offers generalizing t with
  | nil => exact List.Subset.refl []
  | cons o offers ih =>
    cases hdue : t.due o.now with
    | false =>
      rw [through_of_not_due hdue]
      exact List.subset_cons_of_subset o (ih t)
    | true =>
      rw [through_of_due hdue]
      exact List.cons_subset_cons o (ih _)

/-- Under one period, few of the offers that are let through fit between two readings. -/
theorem countP_through_le {ms : Int32} (hms : ∀ o ∈ offers, o.ms = ms) {a b : Nat}
    (hb : b < 0xFFFFFFFFFFFFFFFF) :
    (t.through offers).countP (fun o => a ≤ o.now.toNat && o.now.toNat ≤ b) ≤
      (b - a) / ((max ms.toInt 1).toNat * 1000000) + 1 := by
  rw [List.countP_eq_length_filter, ← List.length_map (fun o : Offer => o.now.toNat)]
  have hin : ∀ o ∈ (t.through offers).filter fun o => a ≤ o.now.toNat && o.now.toNat ≤ b,
      o.ms = ms ∧ a ≤ o.now.toNat ∧ o.now.toNat ≤ b := by
    intro o ho
    obtain ⟨hmem, hbounds⟩ := List.mem_filter.1 ho
    exact ⟨hms o (t.through_subset offers hmem), by simpa using hbounds⟩
  refine length_le_of_spaced (by omega) ?_ fun x hx => ?_
  · rw [List.pairwise_map]
    refine ((t.pairwise_through offers).filter _).imp_of_mem fun {o o'} ho ho' hle => ?_
    -- a deadline at the greatest word is behind `b`, so the one that was reached did not saturate
    obtain ⟨hperiod, -⟩ := hin o ho
    obtain ⟨-, -, hend⟩ := hin o' ho'
    have hhorizon := o.toNat_deadline
    rw [Offer.horizon, hperiod] at hhorizon
    rw [UInt64.le_iff_toNat_le] at hle
    omega
  · obtain ⟨o, ho, rfl⟩ := List.mem_map.1 hx
    exact (hin o ho).2

/-- **The timer goes by the latest tick that it let through.**  Whatever was offered to a
fresh timer, at whatever readings and with whatever periods, the next offer is let through
if and only if none was before, or the period of the latest one that was is over, as it
stood then; an offer that is held back leaves the deadline as it is.  There is no deadline
exactly as long as nothing was let through.  With one period for all offers, those that
are let through between `a` and `b` are at most one more than the periods that fit in
between, also if the clock goes back. -/
theorem paced_by_latest (offers : List Offer) :
    let t := ({} : PolicyTimer).after offers
    let passed := ({} : PolicyTimer).through offers
    (∀ o : Offer,
        ((t.poll o.now o.ms).1 = true ↔
          passed = [] ∨ ∃ latest ∈ passed.getLast?, latest.horizon ≤ o.now.toNat) ∧
        ((t.poll o.now o.ms).1 = false → (t.poll o.now o.ms).2.deadline = t.deadline)) ∧
      (t.deadline = none ↔ passed = []) ∧
      (∀ d, t.deadline = some d →
        ∃ latest ∈ passed.getLast?, d ≠ 0 ∧ (d.toNat : Int) = latest.horizon) ∧
      ∀ (ms : Int32) (a b : Nat), (∀ o ∈ offers, o.ms = ms) → b < 0xFFFFFFFFFFFFFFFF →
        passed.countP (fun o => a ≤ o.now.toNat && o.now.toNat ≤ b) ≤
          (b - a) / ((max ms.toInt 1).toNat * 1000000) + 1 := by
  intro t passed
  have hf : t.Follows passed.getLast? := by
    have hfresh : ({} : PolicyTimer).Follows none := rfl
    have hrun := follows_after hfresh offers
    rwa [Option.or_none] at hrun
  refine ⟨fun o => ⟨?_, fun ho => ?_⟩, ?_, fun d hd => ?_, fun ms a b hms hb => ?_⟩
  · rw [fst_poll, hf.due_iff, List.getLast?_eq_none_iff]
  · rw [fst_poll] at ho
    rw [poll_of_not_due ho]
  · rw [hf, Option.map_eq_none_iff, List.getLast?_eq_none_iff]
  · rw [hf, Option.map_eq_some_iff] at hd
    obtain ⟨latest, hlatest, rfl⟩ := hd
    exact ⟨latest, hlatest, satAdd_periodNanos_ne_zero _ _, latest.toNat_deadline⟩
  · exact countP_through_le hms hb

/-- A period of 20 ms lets three of five offers through within 59 ms, as many as fit, though
the clock goes back once. -/
theorem paced_by_latest_back :
    let atMs (ms : Nat) : Offer := ⟨.ofNat (ms * 1000000), 20⟩
    let offers := [atMs 0, atMs 19, atMs 25, atMs 5, atMs 50]
    let passed := ({} : PolicyTimer).through offers
    passed = [atMs 0, atMs 25, atMs 50] ∧
      passed.countP (fun o => 0 ≤ o.now.toNat && o.now.toNat ≤ 59000000) ≤ 3 ∧
      (({} : PolicyTimer).after offers).deadline = some 70000000 := by
  intro atMs offers passed
  obtain ⟨-, -, -, hcount⟩ := paced_by_latest offers
  exact ⟨by decide, hcount 20 0 59000000 (by decide) (by decide), by decide⟩

end PolicyTimer
end CpuSteward
