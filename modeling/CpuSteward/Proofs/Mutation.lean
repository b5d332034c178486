import CpuSteward.Tunable.Registry

/-!
# Changes of a registry alone

Each change of a registry treats the declared ranges in its own way: writes from outside refuse a
value that is not in the range, a store clamps it, a reset goes back to the defaults, and counting
up does not look at the range at all.  So all values stay in their ranges until a tunable is
counted up at the upper end of its own; from there it leaves the range by one.  No other change
does any harm, whatever values and bytes it comes with.

## Main definitions

* `Mutation` — the changes that anyone who has the registry can ask for.
* `Registry.mutate`, `Registry.runMutations`, `Registry.history` — one change, and many.

## Main results

* `Registry.get_mutate_of_ne` — a change touches the tunable that it names.
* `Registry.accepts_mutate_iff` — the one change that leads out of a range.
* `Registry.ranges_of_mutations` — **a value stays in its range as long as it is not counted up at
  the upper end.**
* `Registry.range_left` — and then it is in no range any more.
-/

namespace CpuSteward

/-- The changes of a registry that anyone who has it can ask for. -/
inductive Mutation where
  /-- Write a buffer from outside. -/
  | set (t : Tunable) (bytes : ByteArray)
  /-- Write a value from outside. -/
  | setValue (t : Tunable) (v : Int32)
  /-- Update from within. -/
  | store (t : Tunable) (v : Int32)
  /-- Count up from within. -/
  | increment (t : Tunable)
  /-- Give every tunable its default. -/
  | reset

/-- The tunable that a change names; a reset names none. -/
def Mutation.target? : Mutation → Option Tunable
  | set t _ => some t
  | setValue t _ => some t
  | store t _ => some t
  | increment t => some t
  | reset => none

/-- The greatest word is in no declared range. -/
theorem Tunable.toInt_hi_lt {t : Tunable} {b : Bounds} (hb : t.spec.bounds = some b) :
    b.hi.toInt < 0x7FFFFFFF := by
  have h : ∀ b ∈ t.spec.bounds, b.hi.toInt < 0x7FFFFFFF := by
    cases t <;> decide
  exact h b hb

/-- The value after one more is in a range if the value was in it, and not at its upper end. -/
theorem Bounds.accepts_add_one_iff {b : Bounds} {v : Int32} (hb : b.hi.toInt < 0x7FFFFFFF)
    (hv : b.accepts v = true) : b.accepts (v + 1) = true ↔ v ≠ b.hi := by
  obtain ⟨hlo, hhi⟩ := Bounds.accepts_iff.1 hv
  rw [Int32.le_iff_toInt_le] at hlo hhi
  have hone : (1 : Int32).toInt = 1 := by decide
  have hadd : (v + 1).toInt = v.toInt + 1 := by
    have := v.le_toInt
    rw [Int32.toInt_add, hone, Int.bmod_eq_of_le] <;> omega
  rw [Bounds.accepts_iff, Int32.le_iff_toInt_le, Int32.le_iff_toInt_le, hadd, ne_eq,
    ← Int32.toInt_inj]
  omega

namespace Registry

variable {r r' : Registry} {t u : Tunable} {b : Bounds} {m : Mutation} {ms : List Mutation}

/-- The registry after one change; one that is refused leaves it as it was. -/
def mutate (r : Registry) : Mutation → Registry
  | .set t bytes => (r.set t bytes).toOption.getD r
  | .setValue t v => (r.setValue t v).toOption.getD r
  | .store t v => r.store t v
  | .increment t => r.increment t
  | .reset => defaults

/-- The registry after changes in a row. -/
def runMutations (r : Registry) : List Mutation → Registry
  | [] => r
  | m :: ms => (r.mutate m).runMutations ms

/-- The registry before, between and after changes in a row. -/
def history (r : Registry) : List Mutation → List Registry
  | [] => [r]
  | m :: ms => r :: (r.mutate m).history ms

theorem self_mem_history (r : Registry) (ms : List Mutation) : r ∈ r.history ms := by
  cases ms <;> exact List.mem_cons_self

/-! ### One change -/

/-- What a single change does: it is refused, updates the tunable that it names, or resets all. -/
theorem mutate_cases (r : Registry) (m : Mutation) :
    (r.mutate m = r ∧ ∀ t, m ≠ .increment t) ∨
      (∃ u v, m.target? = some u ∧ r.mutate m = r.put u v ∧ u.spec.accepts v = true ∧
        ∀ t, m ≠ .increment t) ∨
      (∃ u, m = .increment u ∧ r.mutate m = r.put u (r.get u + 1)) ∨
      (m = .reset ∧ r.mutate m = defaults) := by
  cases m with
  | set u bytes =>
    cases h : r.set u bytes with
    | error cause =>
      refine Or.inl ⟨?_, nofun⟩
      rw [mutate, h]
      rfl
    | ok r' =>
      obtain ⟨v, -, -, hv, rfl⟩ := set_eq_ok_iff.1 h
      refine Or.inr (Or.inl ⟨u, v, rfl, ?_, hv, nofun⟩)
      rw [mutate, h]
      rfl
  | setValue u v =>
    cases h : r.setValue u v with
    | error cause =>
      refine Or.inl ⟨?_, nofun⟩
      rw [mutate, h]
      rfl
    | ok r' =>
      obtain ⟨-, hv, rfl⟩ := setValue_eq_ok_iff.1 h
      refine Or.inr (Or.inl ⟨u, v, rfl, ?_, hv, nofun⟩)
      rw [mutate, h]
      rfl
  | store u v => exact Or.inr (Or.inl ⟨u, _, rfl, rfl, u.spec.accepts_clamp v, nofun⟩)
  | increment u => exact Or.inr (Or.inr (Or.inl ⟨u, rfl, rfl⟩))
  | reset => exact Or.inr (Or.inr (Or.inr ⟨rfl, rfl⟩))

/-- A change touches the tunable that it names, and no other. -/
theorem get_mutate_of_ne (hu : m.target? = some u) (ht : t ≠ u) :
    (r.mutate m).get t = r.get t := by
  rcases r.mutate_cases m with ⟨h, -⟩ | ⟨u', v, hu', h, -⟩ | ⟨u', rfl, h⟩ | ⟨rfl, -⟩
  · rw [h]
  · cases hu'.symm.trans hu
    rw [h, get_put_of_ne _ _ ht]
  · cases hu
    rw [h, get_put_of_ne _ _ ht]
  · cases hu

/-- A value in its range leaves it only by being counted up at the upper end. -/
theorem accepts_mutate_iff (hb : t.spec.bounds = some b) (hr : b.accepts (r.get t) = true) :
    b.accepts ((r.mutate m).get t) = true ↔ (m = .increment t → r.get t ≠ b.hi) := by
  have hspec := TunableSpec.accepts_of_bounds hb
  rcases r.mutate_cases m with ⟨h, hm⟩ | ⟨u, v, -, h, hv, hm⟩ | ⟨u, rfl, h⟩ | ⟨rfl, h⟩ <;> rw [h]
  · exact iff_of_true hr fun he => absurd he (hm t)
  · refine iff_of_true ?_ fun he => absurd he (hm t)
    by_cases hu : t = u
    · subst hu
      rw [get_put_self, ← hspec]
      exact hv
    · rwa [get_put_of_ne _ _ hu]
  · by_cases hu : t = u
    · subst hu
      rw [get_put_self, Bounds.accepts_add_one_iff (Tunable.toInt_hi_lt hb) hr]
      exact ⟨fun h _ => h, fun h => h rfl⟩
    · rw [get_put_of_ne _ _ hu]
      refine iff_of_true hr fun he => ?_
      cases he
      exact absurd rfl hu
  · refine iff_of_true ?_ nofun
    rw [get_defaults, ← hspec]
    exact t.accepts_default

/-! ### Changes in a row -/

/-- From a value in its range, all values on the way are in it as long as the tunable is not
counted up at the upper end. -/
theorem accepts_history_iff (hb : t.spec.bounds = some b) (hr : b.accepts (r.get t) = true) :
    (∀ r' ∈ r.history ms, b.accepts (r'.get t) = true) ↔
      ∀ before after, ms = before ++ .increment t :: after →
        (r.runMutations before).get t ≠ b.hi := by
  induction ms generalizing r with
  | nil =>
    rw [history, List.forall_mem_singleton]
    refine iff_of_true hr fun before after he => ?_
    exact absurd he.symm (List.append_ne_nil_of_right_ne_nil _ (List.cons_ne_nil _ _))
  | cons m ms ih =>
    rw [history, List.forall_mem_cons]
    -- the first change leads out of the range, or the rest starts inside it
    by_cases hm : m = .increment t → r.get t ≠ b.hi
    · rw [ih ((accepts_mutate_iff hb hr).2 hm)]
      constructor
      · rintro ⟨-, h⟩ before after he
        cases before with
        | nil =>
          cases he
          exact hm rfl
        | cons m' before =>
          cases he
          exact h before after rfl
      · intro h
        exact ⟨hr, fun before after he => h (m :: before) after (congrArg (m :: ·) he)⟩
    · refine iff_of_false ?_ ?_
      · rintro ⟨-, h⟩
        exact hm ((accepts_mutate_iff hb hr).1 (h _ (self_mem_history _ _)))
      · intro h
        exact hm fun he => h [] ms (congrArg (· :: ms) he)

/-- **A value stays in its range as long as it is not counted up at the upper end.**  That is said
of all changes in a row, from the defaults on: the values of a tunable that declares a range are
in it at every moment if and only if no change counts the tunable up while it is at the upper end
of the range.  And each change but a reset touches the one tunable that it names. -/
theorem ranges_of_mutations (ms : List Mutation) :
    (∀ t b, t.spec.bounds = some b →
        ((∀ r ∈ defaults.history ms, b.accepts (r.get t) = true) ↔
          ∀ before after, ms = before ++ .increment t :: after →
            (defaults.runMutations before).get t ≠ b.hi)) ∧
      ∀ (r : Registry) (m : Mutation) (u : Tunable), m.target? = some u → ∀ t, t ≠ u →
        (r.mutate m).get t = r.get t := by
  refine ⟨fun t b hb => accepts_history_iff hb ?_, fun r m u hu t ht => get_mutate_of_ne hu ht⟩
  rw [get_defaults, ← TunableSpec.accepts_of_bounds hb]
  exact t.accepts_default

/-- The threshold is stored far above its range, written just below the upper end, counted up to
it, and written again with what is no number. -/
theorem ranges_of_mutations_threshold :
    let ms : List Mutation := [
      .store .cpuPerformanceThreshold 200,
      .setValue .cpuPerformanceThreshold 94,
      .increment .cpuPerformanceThreshold,
      .set .cpuPerformanceThreshold "up".toUTF8]
    (defaults.history ms).map (·.get .cpuPerformanceThreshold) = [80, 95, 94, 95, 95] ∧
      ∀ r ∈ defaults.history ms,
        Bounds.accepts ⟨50, 95, by decide⟩ (r.get .cpuPerformanceThreshold) = true := by
  intro ms
  refine ⟨by decide +kernel, ((ranges_of_mutations ms).1 _ _ rfl).2 fun before after he => ?_⟩
  -- the one change that counts up is the third
  rcases before with _ | ⟨m₁, _ | ⟨m₂, _ | ⟨m₃, before⟩⟩⟩
  · simp [ms] at he
  · simp [ms] at he
  · obtain ⟨rfl, rfl, -⟩ : .store _ 200 = m₁ ∧ .setValue _ 94 = m₂ ∧ [_] = after := by
      simpa [ms] using he
    decide +kernel
  · cases before <;> simp [ms] at he

/-- Rebalancing is enabled, which is the greatest value of that tunable.  Counted up, it has a
value that no write from outside could give it. -/
theorem range_left :
    let r := defaults.mutate (.increment .policyOptimizationEnabled)
    r ∈ defaults.history [.increment .policyOptimizationEnabled] ∧
      Tunable.policyOptimizationEnabled.spec.bounds = some ⟨0, 1, by decide⟩ ∧
      r.get .policyOptimizationEnabled = 2 ∧
      Tunable.policyOptimizationEnabled.spec.accepts 2 = false ∧
      r.setValue .policyOptimizationEnabled 2 = .error (.value (.outOfRange 0 1)) := by
  intro r
  refine ⟨List.mem_cons_of_mem _ (self_mem_history _ _), rfl, ?_, ?_, rfl⟩
  · decide +kernel
  · decide +kernel

end Registry
end CpuSteward
