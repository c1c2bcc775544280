/-! # Error codes and stops

`PERROR_THROW_CODE` leaves a call with a code; a failing `kassert` stops the
kernel. Both end a modelled call, and only the first can be caught.
-/

namespace PadOS

inductive PErrorCode
  | io | inval | again | nospc | fbig | fault | perm | rofs | isdir | notdir | notempty
  | noent | exist | nametoolong | badf | pipe | wouldblock | intr
  | success | busy | timedout | overflow | deadlk | restartsyscall | acces | srch | nomem | child
  | ftype | mfile
  deriving DecidableEq, Repr

inductive Stop
  | throws (code : PErrorCode)
  | panics
  deriving DecidableEq, Repr

/-- How a call that may wait leaves one of its steps. -/
inductive Outcome (α : Type)
  | returns (value : α)
  | throws (code : PErrorCode)
  | waits

theorem ite_error_eq_ok {ε α : Type} {p : Prop} [Decidable p] {code : ε} {x : Except ε α} {a : α} :
    (if p then .error code else x) = .ok a ↔ ¬p ∧ x = .ok a := by
  by_cases h : p <;> simp [h]

end PadOS
