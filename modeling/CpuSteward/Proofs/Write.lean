import CpuSteward.System.Basic

/-!
# Writing to files

A write is accepted or refused as a whole.  It is accepted when its path leads to
a writable file that stands for a tunable, the tunable is open to writes from
outside, and the buffer holds the literal of a value that the tunable may hold.
Then this one value changes, and a file that stands for the request to record the
governors has them recorded as well.  Anything else is refused, the first cause on
the way from the path to the value decides which error that is, and the system
stays as it was.

## Main definitions

* `Endpoint.target?`, `Endpoint.keeper?` — what a write to a file reaches.
* `System.Leads` — the path leads to a file.
* `System.Accepts`, `System.Refuses` — when a write is accepted, and with which
  error it is refused.
* `System.Written` — the system after an accepted write.

## Main results

* `System.refuses_or_accepts` — there is no third case.
* `System.write_eq_ok_iff`, `System.write_eq_error_iff` — the result tells which.
* `System.write_exact` — **a write is exact and atomic.**
-/

namespace CpuSteward

/-- The tunable that a write to a file sets, and the controller it belongs to. -/
def Endpoint.target? : Endpoint → Option (ControllerId × Tunable)
  | .tunable owner t => some (owner, t)
  | .governors owner _ => some (owner, .saveGov)
  | .report _ => none
  | .fixed _ => none

/-- The controller that records the governors on a write to a file. -/
def Endpoint.keeper? : Endpoint → Option ControllerId
  | .governors _ keeper => some keeper
  | .tunable _ _ => none
  | .report _ => none
  | .fixed _ => none

namespace System

variable {s : System} {k : Kernel} {path : String} {bytes : ByteArray} {perm : Perm}
  {endpoint : Endpoint} {owner : ControllerId} {t : Tunable} {v : Int32}

/-- The path leads to a file with these permission bits that stands for `endpoint`. -/
def Leads (s : System) (path : String) (perm : Perm) (endpoint : Endpoint) : Prop :=
  ∃ node, s.tree.resolve? path = some node ∧ node.content = .file perm endpoint

/-- A write of the buffer to the path sets tunable `t` of controller `owner` to `v`:
the file is writable and stands for the tunable, which is open to writes from outside
and may hold the value in the buffer. -/
structure Accepts (s : System) (path : String) (bytes : ByteArray) (endpoint : Endpoint)
    (owner : ControllerId) (t : Tunable) (v : Int32) : Prop where
  file : ∃ perm, s.Leads path perm endpoint ∧ perm.writable = true
  target : endpoint.target? = some (owner, t)
  access : t.spec.access = .readWrite
  literal : IntLiteral.read? bytes = some v
  range : t.spec.accepts v = true

/-- A write of the buffer to the path is refused with an error.  The causes are
listed in the order in which they decide. -/
inductive Refuses (s : System) (path : String) (bytes : ByteArray) : AccessError → Prop where
  /-- The path leads nowhere. -/
  | unresolved (h : s.tree.resolve? path = none) : Refuses s path bytes .noEntry
  /-- The path leads to a directory. -/
  | directory {node : Node Endpoint} (h : s.tree.resolve? path = some node)
      (hd : node.content = .directory) : Refuses s path bytes .isDirectory
  /-- The permission bits of the file forbid it. -/
  | locked {perm : Perm} {endpoint : Endpoint} (h : s.Leads path perm endpoint)
      (hw : perm.writable = false) : Refuses s path bytes .permissionDenied
  /-- The file stands for nothing that can be written. -/
  | fixed {perm : Perm} {endpoint : Endpoint} (h : s.Leads path perm endpoint)
      (hw : perm.writable = true) (ht : endpoint.target? = none) :
      Refuses s path bytes .permissionDenied
  /-- The tunable is closed to writes from outside, whatever the bytes are. -/
  | readOnly {perm : Perm} {endpoint : Endpoint} {owner : ControllerId} {t : Tunable}
      (h : s.Leads path perm endpoint) (hw : perm.writable = true)
      (ht : endpoint.target? = some (owner, t)) (ha : t.spec.access = .readOnly) :
      Refuses s path bytes .permissionDenied
  /-- The bytes are no integer literal. -/
  | malformed {perm : Perm} {endpoint : Endpoint} {owner : ControllerId} {t : Tunable}
      (h : s.Leads path perm endpoint) (hw : perm.writable = true)
      (ht : endpoint.target? = some (owner, t)) (ha : t.spec.access = .readWrite)
      (hl : IntLiteral.read? bytes = none) : Refuses s path bytes (.value .malformed)
  /-- The value is outside the declared range. -/
  | outOfRange {perm : Perm} {endpoint : Endpoint} {owner : ControllerId} {t : Tunable}
      {v : Int32} {b : Bounds} (h : s.Leads path perm endpoint) (hw : perm.writable = true)
      (ht : endpoint.target? = some (owner, t)) (ha : t.spec.access = .readWrite)
      (hl : IntLiteral.read? bytes = some v) (hb : t.spec.bounds = some b)
      (hv : b.accepts v = false) : Refuses s path bytes (.value (.outOfRange b.lo b.hi))

/-- The system `s'` is `s` after a file that stands for `endpoint` was written, and
with it tunable `t` of controller `owner` set to `v`.  The governors are recorded by
the controller that the file names for that, if it names one; all else stays. -/
structure Written (s s' : System) (k : Kernel) (endpoint : Endpoint) (owner : ControllerId)
    (t : Tunable) (v : Int32) : Prop where
  tree : s'.tree = s.tree
  nextController : s'.nextController = s.nextController
  values : ∀ id u, (s'.controller id).registry.get u =
    if id = owner ∧ u = t then v else (s.controller id).registry.get u
  gate : ∀ id, (s'.controller id).gate = (s.controller id).gate
  timer : ∀ id, (s'.controller id).timer = (s.controller id).timer
  governors : ∀ id, (s'.controller id).governors =
    if endpoint.keeper? = some id then (s.controller id).governors.saveAll k
    else (s.controller id).governors

/-! ### What a path leads to -/

theorem write_of_leads (h : s.Leads path perm endpoint) :
    s.write k path bytes =
      if perm.writable then s.writeEndpoint k bytes endpoint
      else { result := .error .permissionDenied, system := s } := by
  obtain ⟨node, hr, hc⟩ := h
  unfold write
  rw [hr]
  simp only [hc]

/-- A path leads nowhere, to a directory, or to a file. -/
theorem resolve_cases (s : System) (path : String) :
    s.tree.resolve? path = none ∨
      (∃ node, s.tree.resolve? path = some node ∧ node.content = .directory) ∨
      ∃ perm endpoint, s.Leads path perm endpoint := by
  cases hr : s.tree.resolve? path with
  | none => exact Or.inl rfl
  | some node =>
    cases hc : node.content with
    | directory => exact Or.inr (Or.inl ⟨node, rfl, hc⟩)
    | file perm endpoint => exact Or.inr (Or.inr ⟨perm, endpoint, node, hr, hc⟩)

/-! ### Writing to what a file stands for -/

theorem writeTunable_of_error {cause : SetError}
    (h : (s.controller owner).registry.set t bytes = .error cause) :
    (s.writeTunable owner t bytes).result = .error (.ofSetError cause) ∧
      (s.writeTunable owner t bytes).system = s := by
  unfold writeTunable
  rw [h]
  exact ⟨rfl, rfl⟩

theorem writeTunable_of_ok {r : Registry}
    (h : (s.controller owner).registry.set t bytes = .ok r) :
    (s.writeTunable owner t bytes).result = .ok bytes.size ∧
      (s.writeTunable owner t bytes).system = s.setRegistry owner r := by
  unfold writeTunable
  rw [h]
  exact ⟨rfl, rfl⟩

/-- A file whose tunable refuses the bytes reports its cause, and nothing is
recorded. -/
theorem writeEndpoint_of_error {cause : SetError} (ht : endpoint.target? = some (owner, t))
    (h : (s.controller owner).registry.set t bytes = .error cause) :
    (s.writeEndpoint k bytes endpoint).result = .error (.ofSetError cause) ∧
      (s.writeEndpoint k bytes endpoint).system = s := by
  cases endpoint with
  | tunable owner' t' =>
    cases ht
    exact writeTunable_of_error h
  | governors owner' keeper =>
    cases ht
    obtain ⟨hr, hs⟩ := writeTunable_of_error h
    unfold writeEndpoint
    simp only [hr]
    exact ⟨trivial, hs⟩
  | report owner' => cases ht
  | fixed content => cases ht

/-- A file whose tunable takes the bytes consumes all of them.  The registry of the
owner and the governors of the keeper are all that changes. -/
theorem writeEndpoint_of_ok {r : Registry} (ht : endpoint.target? = some (owner, t))
    (h : (s.controller owner).registry.set t bytes = .ok r) :
    (s.writeEndpoint k bytes endpoint).result = .ok bytes.size ∧
      (s.writeEndpoint k bytes endpoint).system =
        { s with
          controller := fun id =>
            { s.controller id with
              registry := if id = owner then r else (s.controller id).registry
              governors :=
                if endpoint.keeper? = some id then (s.controller id).governors.saveAll k
                else (s.controller id).governors } } := by
  cases endpoint with
  | tunable owner' t' =>
    cases ht
    obtain ⟨hr, hs⟩ := writeTunable_of_ok h
    refine ⟨hr, hs.trans ?_⟩
    unfold setRegistry setController
    congr 1
    funext id
    by_cases hid : id = owner
    · simp [hid, Endpoint.keeper?]
    · simp [hid, Endpoint.keeper?]
  | governors owner' keeper =>
    cases ht
    obtain ⟨hr, hs⟩ := writeTunable_of_ok h
    unfold writeEndpoint
    simp only [hr, hs, saveGovernors, true_and]
    unfold setRegistry setController Controller.saveGovernors
    congr 1
    funext id
    -- owner and keeper may be the same controller or two
    by_cases hid : id = keeper
    · subst hid
      by_cases hio : id = owner
      · simp [hio, Endpoint.keeper?]
      · simp [hio, Endpoint.keeper?]
    · by_cases hio : id = owner
      · subst hio
        simp [hid, Ne.symm hid, Endpoint.keeper?]
      · simp [hid, Ne.symm hid, hio, Endpoint.keeper?]
  | report owner' => cases ht
  | fixed content => cases ht

/-! ### Every write is accepted or refused -/

theorem refuses_or_accepts (s : System) (path : String) (bytes : ByteArray) :
    (∃ e, s.Refuses path bytes e) ∨
      ∃ endpoint owner t v, s.Accepts path bytes endpoint owner t v := by
  rcases s.resolve_cases path with h | ⟨node, h, hd⟩ | ⟨perm, endpoint, h⟩
  · exact Or.inl ⟨_, .unresolved h⟩
  · exact Or.inl ⟨_, .directory h hd⟩
  -- for a file, each split decides one cause, in the order of the causes
  cases hw : perm.writable with
  | false => exact Or.inl ⟨_, .locked h hw⟩
  | true =>
    cases ht : endpoint.target? with
    | none => exact Or.inl ⟨_, .fixed h hw ht⟩
    | some target =>
      obtain ⟨owner, t⟩ := target
      cases ha : t.spec.access with
      | readOnly => exact Or.inl ⟨_, .readOnly h hw ht ha⟩
      | readWrite =>
        cases hl : IntLiteral.read? bytes with
        | none => exact Or.inl ⟨_, .malformed h hw ht ha hl⟩
        | some v =>
          cases hv : t.spec.accepts v with
          | true => exact Or.inr ⟨endpoint, owner, t, v, ⟨perm, h, hw⟩, ht, ha, hl, hv⟩
          | false =>
            obtain ⟨b, hb, hbv⟩ := TunableSpec.exists_bounds_of_not_accepts hv
            exact Or.inl ⟨_, .outOfRange h hw ht ha hl hb hbv⟩

/-- A refused write reports its error and changes nothing. -/
theorem write_of_refuses {e : AccessError} (h : s.Refuses path bytes e) :
    (s.write k path bytes).result = .error e ∧ (s.write k path bytes).system = s := by
  cases h with
  | unresolved h =>
    unfold write
    rw [h]
    exact ⟨rfl, rfl⟩
  | directory h hd =>
    unfold write
    rw [h]
    simp only [hd]
    exact ⟨trivial, trivial⟩
  | locked h hw =>
    rw [write_of_leads h, hw]
    exact ⟨rfl, rfl⟩
  | fixed h hw ht =>
    rw [write_of_leads h, hw]
    rename_i endpoint
    cases endpoint with
    | report owner => exact ⟨rfl, rfl⟩
    | fixed content => exact ⟨rfl, rfl⟩
    | tunable owner t => cases ht
    | governors owner keeper => cases ht
  | readOnly h hw ht ha =>
    rw [write_of_leads h, if_pos hw]
    exact writeEndpoint_of_error ht (Registry.set_of_readOnly ha)
  | malformed h hw ht ha hl =>
    rw [write_of_leads h, if_pos hw]
    exact writeEndpoint_of_error ht (Registry.set_of_malformed ha hl)
  | outOfRange h hw ht ha hl hb hv =>
    rw [write_of_leads h, if_pos hw]
    exact writeEndpoint_of_error ht
      ((Registry.set_of_literal ha hl).trans (Registry.setValue_of_not_accepts ha hb hv))

/-- What an accepted write leaves of the system: all but the registry of the owner
and the governors of the keeper. -/
theorem write_of_accepts (h : s.Accepts path bytes endpoint owner t v) :
    (s.write k path bytes).result = .ok bytes.size ∧
      (s.write k path bytes).system =
        { s with
          controller := fun id =>
            { s.controller id with
              registry :=
                if id = owner then (s.controller owner).registry.put t v
                else (s.controller id).registry
              governors :=
                if endpoint.keeper? = some id then (s.controller id).governors.saveAll k
                else (s.controller id).governors } } := by
  obtain ⟨perm, hf, hw⟩ := h.file
  rw [write_of_leads hf, if_pos hw]
  exact writeEndpoint_of_ok h.target
    (Registry.set_eq_ok_iff.2 ⟨v, h.literal, h.access, h.range, rfl⟩)

theorem written_of_accepts (h : s.Accepts path bytes endpoint owner t v) :
    Written s (s.write k path bytes).system k endpoint owner t v := by
  rw [(write_of_accepts h).2]
  refine ⟨rfl, rfl, fun id u => ?_, fun _ => rfl, fun _ => rfl, fun _ => rfl⟩
  by_cases hid : id = owner
  · subst hid
    simp [Registry.get_put]
  · simp [hid]

/-- A write is accepted exactly when it sets a tunable, and then as a whole. -/
theorem write_eq_ok_iff {n : Nat} :
    (s.write k path bytes).result = .ok n ↔
      n = bytes.size ∧ ∃ endpoint owner t v, s.Accepts path bytes endpoint owner t v := by
  constructor
  · intro hn
    rcases s.refuses_or_accepts path bytes with ⟨e, h⟩ | ⟨endpoint, owner, t, v, h⟩
    · rw [(write_of_refuses h).1] at hn
      cases hn
    · rw [(write_of_accepts h).1] at hn
      cases hn
      exact ⟨rfl, endpoint, owner, t, v, h⟩
  · rintro ⟨rfl, endpoint, owner, t, v, h⟩
    exact (write_of_accepts h).1

/-- The error of a refused write tells its cause. -/
theorem write_eq_error_iff {e : AccessError} :
    (s.write k path bytes).result = .error e ↔ s.Refuses path bytes e := by
  constructor
  · intro he
    rcases s.refuses_or_accepts path bytes with ⟨e', h⟩ | ⟨endpoint, owner, t, v, h⟩
    · rw [(write_of_refuses h).1] at he
      cases he
      exact h
    · rw [(write_of_accepts h).1] at he
      cases he
  · intro h
    exact (write_of_refuses h).1

/-- **A write is exact and atomic.**  It consumes the whole buffer if it is accepted,
and then changes the one value, and the recorded governors only through a file that
asks for that; else it reports the first cause on its way, and changes nothing. -/
theorem write_exact (s : System) (k : Kernel) (path : String) (bytes : ByteArray) :
    (∀ n, (s.write k path bytes).result = .ok n ↔
        n = bytes.size ∧ ∃ endpoint owner t v, s.Accepts path bytes endpoint owner t v) ∧
      (∀ endpoint owner t v, s.Accepts path bytes endpoint owner t v →
        Written s (s.write k path bytes).system k endpoint owner t v) ∧
      (∀ e, (s.write k path bytes).result = .error e ↔ s.Refuses path bytes e) ∧
      ∀ e, (s.write k path bytes).result = .error e → (s.write k path bytes).system = s := by
  refine ⟨fun n => write_eq_ok_iff, fun _ _ _ _ h => written_of_accepts h,
    fun e => write_eq_error_iff, fun e he => ?_⟩
  exact (write_of_refuses (write_eq_error_iff.1 he)).2

/-- A request to record the governors that goes to one controller for the value and
to another for the names. -/
theorem write_exact_governors :
    let s : System := { tree := (Namespace.empty.create .root "save" ⟨0o200⟩ (.governors 2 5)).2 }
    let k : Kernel :=
      { present := .first 2, policyCpu := fun _ => some 0, governor := fun _ => some "walt" }
    s.Accepts "//save/" "0x1F".toUTF8 (.governors 2 5) 2 .saveGov 31 ∧
      Written s (s.write k "//save/" "0x1F".toUTF8).system k (.governors 2 5) 2 .saveGov 31 := by
  intro s k
  have h : s.Accepts "//save/" "0x1F".toUTF8 (.governors 2 5) 2 .saveGov 31 :=
    ⟨⟨⟨0o200⟩, ⟨⟨2, "save", .file ⟨0o200⟩ (.governors 2 5)⟩, rfl, rfl⟩, by decide⟩, rfl, rfl,
      by decide +kernel, rfl⟩
  exact ⟨h, (write_exact s k "//save/" "0x1F".toUTF8).2.1 _ _ _ _ h⟩

end System
end CpuSteward
