/-
  Computations that may report an error or may be aborted
  altogether.

  Key definitions include:
    * `Halt`
    * `Attempt`
    * `Attempt.wrap`
-/

namespace CommandScript

/-
  Why a computation has no value: it reports an error, or it
  is aborted. An abort is no report: nothing handles it, and
  it ends the program.
-/
inductive Halt (ε : Type) where
| error (cause : ε)
| aborted
deriving DecidableEq, Repr

/- A computation that may report an error or be aborted. -/
abbrev Attempt (ε α : Type) :=
  Except (Halt ε) α

namespace Attempt

variable {ε ε' α : Type}

/- Report an error. -/
def reject (cause : ε) : Attempt ε α :=
  .error (.error cause)

/- A computation that only reports errors. -/
def ofExcept : Except ε α → Attempt ε α
| .ok value => .ok value
| .error cause => reject cause

/- Put an error into a wider context. -/
def wrap
    (context : ε → ε') : Attempt ε α → Attempt ε' α
| .ok value => .ok value
| .error (.error cause) => reject (context cause)
| .error .aborted => .error .aborted

/- What only reports errors is rejected for the same ones. -/
theorem ofExcept_eq_reject_iff
    {result : Except ε α}
    {cause : ε} :
    ofExcept result = reject cause ↔
      result = .error cause := by
  cases result <;> simp [ofExcept, reject]

/- What succeeds in two steps succeeds in each. -/
theorem exists_of_bind_eq_ok
    {ε α β : Type}
    {attempt : Except ε α}
    {next : α → Except ε β}
    {value : β}
    (hBoth : attempt >>= next = .ok value) :
    ∃ first, attempt = .ok first ∧ next first = .ok value :=
    by
  cases attempt with
  | error cause => cases hBoth
  | ok first => exact ⟨first, rfl, hBoth⟩

end Attempt

end CommandScript
