import CpuSteward.Error
import CpuSteward.Text.IntLiteral
import CpuSteward.Tunable.Basic

/-!
# The registry

The registry holds the current value of every tunable.  Writes from outside are
checked and leave everything as it was when they are refused; updates from within
are clamped to the declared range instead, and may touch every tunable.

## Main definitions

* `Registry.get`, `Registry.put`: the value of a tunable, and a plain update.
* `Registry.set`, `Registry.setValue`: the checked writes from outside.
* `Registry.store`, `Registry.increment`: the updates from within.

## Main results

* `Registry.get_put`: an update changes one tunable and no other.
* `Registry.set_eq_ok_iff`: what a write from outside has to satisfy.
* `Registry.ext_get`: a registry is no more than its values.
-/

namespace CpuSteward

/-- The current values of the tunables. -/
structure Registry where
  /-- The values in the order of the tunables. -/
  values : Vector Int32 Tunable.count
  deriving DecidableEq

namespace Registry

/-- The current value of a tunable. -/
def get (r : Registry) (t : Tunable) : Int32 := r.values[t.index]

/-- Give a tunable a value, whatever it is. -/
def put (r : Registry) (t : Tunable) (v : Int32) : Registry := ⟨r.values.set t.index v⟩

/-- The registry in which every tunable has its default. -/
def defaults : Registry :=
  ⟨Vector.ofFn fun i : Fin Tunable.count => (Tunable.ofIndex i).spec.default⟩

instance : Inhabited Registry := ⟨defaults⟩

/-- Write a value from outside. -/
def setValue (r : Registry) (t : Tunable) (v : Int32) : Except SetError Registry :=
  match t.spec.access, t.spec.bounds with
  | .readOnly, _ => .error .readOnly
  | .readWrite, none => .ok (r.put t v)
  | .readWrite, some b =>
    if b.accepts v then .ok (r.put t v) else .error (.value (.outOfRange b.lo b.hi))

/-- Write the integer literal in a buffer from outside.  A tunable that may not be
written refuses before the buffer is looked at. -/
def set (r : Registry) (t : Tunable) (bytes : ByteArray) : Except SetError Registry :=
  match t.spec.access with
  | .readOnly => .error .readOnly
  | .readWrite =>
    match IntLiteral.read? bytes with
    | none => .error (.value .malformed)
    | some v => r.setValue t v

/-- Update a tunable from within; a value outside its range is clamped. -/
def store (r : Registry) (t : Tunable) (v : Int32) : Registry := r.put t (t.spec.clamp v)

/-- Count a tunable up by one from within; past the greatest word it wraps, and no
range is looked at. -/
def increment (r : Registry) (t : Tunable) : Registry := r.put t (r.get t + 1)

/-- The value of the tunable that a path or a bare file name means. -/
def getByName? (r : Registry) (s : String) : Option Int32 := (Tunable.find? s).map r.get

/-- The path and value of every tunable, in order. -/
def snapshot (r : Registry) : List (String × Int32) := Tunable.all.map fun t => (t.path, r.get t)

/-! ### Reading back -/

@[simp] theorem get_put_self (r : Registry) (t : Tunable) (v : Int32) : (r.put t v).get t = v := by
  simp [get, put]

theorem get_put_of_ne (r : Registry) {t u : Tunable} (v : Int32) (h : u ≠ t) :
    (r.put t v).get u = r.get u := by
  have hi : t.index.val ≠ u.index.val := fun e => h (Tunable.index_injective (Fin.ext e)).symm
  simp [get, put, Vector.getElem_set_ne _ _ hi]

theorem get_put (r : Registry) (t u : Tunable) (v : Int32) :
    (r.put t v).get u = if u = t then v else r.get u := by
  split
  · rename_i h
    rw [h, get_put_self]
  · rename_i h
    exact get_put_of_ne r v h

theorem get_store (r : Registry) (t u : Tunable) (v : Int32) :
    (r.store t v).get u = if u = t then t.spec.clamp v else r.get u := get_put r t u _

theorem get_increment (r : Registry) (t u : Tunable) :
    (r.increment t).get u = if u = t then r.get t + 1 else r.get u := get_put r t u _

@[simp] theorem get_defaults (t : Tunable) : defaults.get t = t.spec.default := by
  simp [get, defaults]

/-! ### Writes from outside -/

section Write

variable {r r' : Registry} {t : Tunable} {v : Int32} {b : Bounds} {bytes : ByteArray}

theorem setValue_of_accepts (ha : t.spec.access = .readWrite) (hv : t.spec.accepts v = true) :
    r.setValue t v = .ok (r.put t v) := by
  unfold setValue
  rw [ha]
  cases hb : t.spec.bounds with
  | none => rfl
  | some b =>
    rw [TunableSpec.accepts_of_bounds hb] at hv
    exact if_pos hv

theorem setValue_of_not_accepts (ha : t.spec.access = .readWrite) (hb : t.spec.bounds = some b)
    (hv : b.accepts v = false) : r.setValue t v = .error (.value (.outOfRange b.lo b.hi)) := by
  unfold setValue
  rw [ha, hb]
  exact if_neg (by rw [hv]; exact Bool.false_ne_true)

theorem set_of_readOnly (ha : t.spec.access = .readOnly) : r.set t bytes = .error .readOnly := by
  unfold set
  rw [ha]

theorem set_of_malformed (ha : t.spec.access = .readWrite) (hl : IntLiteral.read? bytes = none) :
    r.set t bytes = .error (.value .malformed) := by
  unfold set
  rw [ha, hl]

theorem set_of_literal (ha : t.spec.access = .readWrite) (hl : IntLiteral.read? bytes = some v) :
    r.set t bytes = r.setValue t v := by
  unfold set
  rw [ha, hl]

/-- A value is taken from outside if the tunable may be written and may hold it. -/
theorem setValue_eq_ok_iff :
    r.setValue t v = .ok r' ↔
      t.spec.access = .readWrite ∧ t.spec.accepts v = true ∧ r.put t v = r' := by
  cases ha : t.spec.access with
  | readOnly => simp [setValue, ha]
  | readWrite =>
    cases hv : t.spec.accepts v with
    | true => simp [setValue_of_accepts ha hv]
    | false =>
      obtain ⟨b, hb, hbv⟩ := TunableSpec.exists_bounds_of_not_accepts hv
      simp [setValue_of_not_accepts ha hb hbv]

/-- A buffer is taken from outside if the tunable may be written and may hold the
value of the literal in it. -/
theorem set_eq_ok_iff :
    r.set t bytes = .ok r' ↔
      ∃ v, IntLiteral.read? bytes = some v ∧
        t.spec.access = .readWrite ∧ t.spec.accepts v = true ∧ r.put t v = r' := by
  cases ha : t.spec.access with
  | readOnly => simp [set_of_readOnly ha]
  | readWrite =>
    cases hl : IntLiteral.read? bytes with
    | none => simp [set_of_malformed ha hl]
    | some v => simp [set_of_literal ha hl, setValue_eq_ok_iff, ha]

end Write

/-- Two registries with the same values are the same. -/
theorem ext_get {r s : Registry} (h : ∀ t, r.get t = s.get t) : r = s := by
  obtain ⟨v⟩ := r
  obtain ⟨w⟩ := s
  congr 1
  apply Vector.ext
  intro i hi
  simpa [get] using h (Tunable.ofIndex ⟨i, hi⟩)

end Registry
end CpuSteward
