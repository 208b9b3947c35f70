/-!
# Operational failures

A failure is what stops a probe, a read or a write from completing. It has a
**kind**, which fixes the numeric code and the heading of its text, and a
**detail**, which says what happened. A platform that is merely unable to run
enclaves is not a failure; see `SgxActivation.Status` for that.
-/

namespace SgxActivation

/-- The three ways in which an operation can go wrong. -/
inductive Failure.Kind where
  /-- Access was refused; a run with more privilege may succeed. -/
  | noPrivilege
  /-- The caller supplied something unusable. -/
  | invalidParameter
  /-- Everything else. -/
  | unexpected
  deriving DecidableEq, Repr

/-- A failed operation: what kind of failure, and the particulars. -/
structure Failure where
  kind : Failure.Kind
  detail : String
  deriving DecidableEq, Repr

namespace Failure

/-- The platform status code of each kind. -/
def Kind.code : Kind → Nat
  | .noPrivilege => 0x5002
  | .invalidParameter => 0x0002
  | .unexpected => 0x0001

/-- The words that stand before the detail. -/
def Kind.heading : Kind → String
  | .noPrivilege => "No privilege: "
  | .invalidParameter => "Invalid parameter: "
  | .unexpected => "Unexpected error: "

/-- Distinct kinds have distinct codes, so a code tells the kind. -/
theorem Kind.code_inj {a b : Kind} : a.code = b.code ↔ a = b := by
  cases a <;> cases b <;> decide

/-- Numeric code of a failure. -/
def code (failure : Failure) : Nat := failure.kind.code

/-- Full text of a failure: heading, then detail. -/
def message (failure : Failure) : String := failure.kind.heading ++ failure.detail

/-- Whether a run with more privilege could succeed. -/
def isNoPrivilege (failure : Failure) : Bool := failure.kind == .noPrivilege

end Failure

end SgxActivation
