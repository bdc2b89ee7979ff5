import Orchestract.Library.Runs

/-!
# A register that has to be opened

What is written before the register is open is lost, and of the rest the last write stays. So the
value after a run is that of the last write which was heard, and two orders of the same signals
agree exactly when these writes do.
-/

namespace Orchestract

set_option autoImplicit false

universe u

variable {β : Type u}

inductive Signal (β : Type u) where
  | opens
  | writes (value : β)
deriving DecidableEq, Repr

structure Register (β : Type u) where
  isOpen : Bool
  value : β
deriving DecidableEq, Repr

namespace Register

def step (r : Register β) : Signal β → Register β
  | .opens => { r with isOpen := true }
  | .writes value => if r.isOpen then { r with value := value } else r

/-- The writes that find the register open. -/
def heard : Bool → List (Signal β) → List β
  | _, [] => []
  | _, .opens :: signals => heard true signals
  | true, .writes value :: signals => value :: heard true signals
  | false, .writes _ :: signals => heard false signals

@[simp] theorem heard_writes (values : List β) : heard true (values.map .writes) = values := by
  induction values with
  | nil => rfl
  | cons value values ih => exact congrArg (value :: ·) ih

theorem run_value (r : Register β) (signals : List (Signal β)) :
    (Runs.run step r signals).value = (heard r.isOpen signals).getLast?.getD r.value := by
  induction signals generalizing r with
  | nil => rfl
  | cons signal signals ih =>
    rw [Runs.run_cons, ih]
    cases signal with
    | opens => rfl
    | writes value =>
      obtain ⟨isOpen, old⟩ := r
      cases isOpen with
      | true =>
        change (heard true signals).getLast?.getD value = (value :: heard true signals).getLast?.getD old
        rw [List.getLast?_cons, Option.getD_some]
      | false => rfl

/-- Any run against the one that opens the register first and then makes the writes in turn. -/
theorem run_value_eq_iff (r : Register β) (values : List β) (signals : List (Signal β)) :
    (Runs.run step r signals).value = (Runs.run step r (.opens :: values.map .writes)).value ↔
      (heard r.isOpen signals).getLast?.getD r.value = values.getLast?.getD r.value := by
  rw [run_value, run_value]
  change _ = (heard true (values.map .writes)).getLast?.getD r.value ↔ _
  rw [heard_writes]

end Register

end Orchestract
