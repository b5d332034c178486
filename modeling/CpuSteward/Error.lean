import CpuSteward.Text.Decimal

/-!
# Errors

Each layer has the causes that can arise in it: a value does not fit, a tunable
refuses it, a request to the file tree cannot be answered, the control plane
cannot be loaded.  Every cause has one wording and one error number.

## Main definitions

* `Errno`: the error numbers.
* `ValueError`, `SetError`, `AccessError`, `LoadError`: the causes by layer, each
  with `message` and `errno`.
-/

namespace CpuSteward

/-- The error numbers a request can end with. -/
inductive Errno where
  /-- Nothing has the name. -/
  | noSuchEntry
  /-- The tree cannot be built. -/
  | outOfMemory
  /-- The request is not allowed. -/
  | permissionDenied
  /-- The bytes are no acceptable value. -/
  | badAddress
  /-- The request needs a file. -/
  | isDirectory
  deriving DecidableEq, Repr

namespace Errno

/-- The number itself. -/
def code : Errno → Int
  | noSuchEntry => 2
  | outOfMemory => 12
  | permissionDenied => 13
  | badAddress => 14
  | isDirectory => 21

/-- What a failed request returns: the number with its sign changed. -/
def status (e : Errno) : Int := -e.code

end Errno

/-- Why bytes are no value for a tunable. -/
inductive ValueError where
  /-- They are no integer literal. -/
  | malformed
  /-- The integer is outside the declared range. -/
  | outOfRange (lo hi : Int32)
  deriving DecidableEq

namespace ValueError

/-- The wording of the cause. -/
def message : ValueError → String
  | malformed => "malformed integer"
  | outOfRange lo hi =>
    "value out of range [" ++ Decimal.ofInt32 lo ++ ", " ++ Decimal.ofInt32 hi ++ "]"

/-- Every refused value is reported as a bad address. -/
def errno (_ : ValueError) : Errno := .badAddress

end ValueError

/-- Why a tunable refuses to be set. -/
inductive SetError where
  /-- The value is not acceptable. -/
  | value (cause : ValueError)
  /-- The tunable is only updated from within. -/
  | readOnly
  deriving DecidableEq

namespace SetError

/-- The wording of the cause. -/
def message : SetError → String
  | value cause => cause.message
  | readOnly => "read-only tunable"

/-- The error number of the cause. -/
def errno : SetError → Errno
  | value cause => cause.errno
  | readOnly => .permissionDenied

end SetError

/-- Why a request to the file tree fails. -/
inductive AccessError where
  /-- The path leads nowhere. -/
  | noEntry
  /-- The path leads to a directory. -/
  | isDirectory
  /-- The file does not allow the request. -/
  | permissionDenied
  /-- The file refuses the bytes. -/
  | value (cause : ValueError)
  deriving DecidableEq

namespace AccessError

/-- What a file reports when its tunable refuses to be set. -/
def ofSetError : SetError → AccessError
  | .value cause => value cause
  | .readOnly => permissionDenied

/-- The wording of the cause. -/
def message : AccessError → String
  | noEntry => "no such entry"
  | isDirectory => "is a directory"
  | permissionDenied => "permission denied"
  | value cause => cause.message

/-- The error number of the cause. -/
def errno : AccessError → Errno
  | noEntry => .noSuchEntry
  | isDirectory => .isDirectory
  | permissionDenied => .permissionDenied
  | value cause => cause.errno

end AccessError

/-- Why the control plane cannot be loaded. -/
inductive LoadError where
  /-- A directory or file of the tree cannot be made. -/
  | entryNotCreated (name : String)
  deriving DecidableEq

namespace LoadError

/-- The wording of the cause. -/
def message : LoadError → String
  | entryNotCreated name => "failed to create proc entry '" ++ name ++ "'"

/-- A tree that cannot be built is reported as exhausted memory. -/
def errno (_ : LoadError) : Errno := .outOfMemory

end LoadError
end CpuSteward
