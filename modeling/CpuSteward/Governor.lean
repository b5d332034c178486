import CpuSteward.Kernel
import CpuSteward.Notice

/-!
# Saved frequency governors

On request the names of the governors in use are recorded, so that they can be
put back later.  A frequency policy is recorded at its first CPU only.  Each CPU
has a slot of `NameSlot.size` bytes; a name is cut to what fits beside a closing
NUL, between two characters, and is read back up to its first NUL.

## Main definitions

* `NameSlot`: a slot, with `NameSlot.ofName` and `NameSlot.name?`.
* `Kernel.policyRecords`: what there is to record, policy by policy.
* `GovernorTable.saveAll`, `GovernorTable.get?`: recording and reading.
-/

namespace CpuSteward

/-- A slot for one name. -/
@[ext]
structure NameSlot where
  /-- The name, closed by a NUL. -/
  bytes : Vector UInt8 16
  deriving DecidableEq

namespace NameSlot

/-- The bytes of a slot. -/
abbrev size : Nat := 16

/-- The slot without a name. -/
def empty : NameSlot := ⟨Vector.replicate size 0⟩

instance : Inhabited NameSlot := ⟨empty⟩

/-- The longest front of a text that takes no more than `room` bytes. -/
def fit : Nat → List Char → List Char
  | _, [] => []
  | room, c :: s => if c.utf8Size ≤ room then c :: fit (room - c.utf8Size) s else []

/-- A name as far as it fits beside a closing NUL. -/
def cut (name : String) : String := String.ofList (fit (size - 1) name.toList)

/-- The slot that holds a name. -/
def ofName (name : String) : NameSlot :=
  let bytes := (cut name).toUTF8.data
  ⟨Vector.ofFn fun i : Fin size => bytes.getD i 0⟩

/-- The name in a slot, up to its first NUL; an empty one is none. -/
def name? (s : NameSlot) : Option String :=
  let bytes := s.bytes.toList.takeWhile (· ≠ 0)
  if bytes.isEmpty then none else String.fromUTF8? bytes.toByteArray

@[simp] theorem fit_nil (room : Nat) : fit room [] = [] := rfl

/-- What fits takes no more bytes than there are. -/
theorem utf8ByteSize_fit_le (room : Nat) (s : List Char) :
    (String.ofList (fit room s)).utf8ByteSize ≤ room := by
  induction s generalizing room with
  | nil => simp
  | cons c s ih =>
    unfold fit
    split
    · have := ih (room - c.utf8Size)
      rw [String.ofList_cons, String.utf8ByteSize_append, String.utf8ByteSize_singleton]
      omega
    · simp

/-- A name that was cut leaves room for the closing NUL. -/
theorem utf8ByteSize_cut_lt (name : String) : (cut name).utf8ByteSize < size :=
  Nat.lt_of_le_of_lt (utf8ByteSize_fit_le _ _) (by decide)

/-- What fits is the front of the text. -/
theorem fit_prefix (room : Nat) (s : List Char) : fit room s <+: s := by
  induction s generalizing room with
  | nil => simp
  | cons c s ih =>
    unfold fit
    split
    · exact List.cons_prefix_cons.2 ⟨rfl, ih _⟩
    · exact List.nil_prefix

end NameSlot

/-- What there is to record about one frequency policy. -/
inductive PolicyRecord where
  /-- The policy of this CPU has no governor. -/
  | missing (cpu : Nat)
  /-- The policy of this CPU has the named governor. -/
  | saved (cpu : Nat) (name : String)
  deriving DecidableEq

namespace PolicyRecord

/-- Whether there is a name to keep. -/
def isSaved : PolicyRecord → Bool
  | missing _ => false
  | saved _ _ => true

/-- The log record that goes with it. -/
def notice : PolicyRecord → Notice
  | missing cpu => .governorMissing cpu
  | saved cpu name => .governorSaved (NameSlot.cut name) cpu

end PolicyRecord

/-- What there is to record in a kernel state, for the first CPU of each policy. -/
def Kernel.policyRecords (k : Kernel) : List PolicyRecord :=
  (k.present.toList.filter fun c => k.policyCpu c == some c).map fun c =>
    match k.governor c with
    | none => .missing c
    | some name => .saved c name

/-- The saved governors by CPU. -/
@[ext]
structure GovernorTable where
  /-- The slots by CPU. -/
  slots : Vector NameSlot maxCpus
  deriving DecidableEq

namespace GovernorTable

/-- The table without names. -/
def empty : GovernorTable := ⟨Vector.replicate maxCpus .empty⟩

instance : Inhabited GovernorTable := ⟨empty⟩

/-- Keep what a record says; a policy without a governor leaves its slot alone. -/
def keep (g : GovernorTable) : PolicyRecord → GovernorTable
  | .missing _ => g
  | .saved cpu name => ⟨g.slots.setIfInBounds cpu (.ofName name)⟩

/-- Record the governors in use. -/
def saveAll (g : GovernorTable) (k : Kernel) : GovernorTable := k.policyRecords.foldl keep g

/-- Forget all names. -/
def clear (_ : GovernorTable) : GovernorTable := .empty

/-- The saved governor of a CPU. -/
def get? (g : GovernorTable) (cpu : Nat) : Option String := g.slots[cpu]?.bind NameSlot.name?

end GovernorTable

/-- How many governors a kernel state has to record. -/
def Kernel.governorCount (k : Kernel) : Nat := k.policyRecords.countP PolicyRecord.isSaved

end CpuSteward
