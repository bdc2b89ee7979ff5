import Orchestract.Domain.Validation

/-!
# Workflow instances

The aggregate of `app/domain/workflow_instances/models.py`: one contract's run through a
definition, with its history. `now` is the value `utcnow()` has during the call.
-/

namespace Orchestract

set_option autoImplicit false

inductive InstanceStatus where
  | active
  | completed
deriving DecidableEq, Repr

def InstanceStatus.value : InstanceStatus → String
  | .active => "active"
  | .completed => "completed"

structure WorkflowHistoryEntry where
  fromStepKey : Option String
  toStepKey : String
  actionName : Option String
  actor : String
  comment : Option String
  occurredAt : Nat
deriving DecidableEq, Repr

structure WorkflowInstance where
  id : Nat
  contractId : Nat
  workflowDefinitionId : Nat
  currentStepKey : String
  status : InstanceStatus
  startedAt : Nat
  completedAt : Option Nat
  history : List WorkflowHistoryEntry
deriving DecidableEq, Repr

namespace WorkflowInstance

def start (contractId : Nat) (definition : WorkflowDefinition) (actor : String) (now : Nat) :
    Except DomainError WorkflowInstance := do
  raiseIf (definition.status ≠ .active) (.inactiveWorkflow definition.id)
  let initial ← definition.initialStep
  return {
    id := 0
    contractId := contractId
    workflowDefinitionId := definition.id
    currentStepKey := initial.key
    status := .active
    startedAt := now
    completedAt := none
    history := [⟨none, initial.key, none, actor, some "workflow started", now⟩] }

def availableActions (i : WorkflowInstance) (definition : WorkflowDefinition) :
    List WorkflowTransition :=
  if i.status ≠ .active then [] else definition.transitionsFrom i.currentStepKey

def applyTransition (i : WorkflowInstance) (definition : WorkflowDefinition)
    (actionName actor : String) (comment : Option String) (now : Nat) :
    Except DomainError WorkflowInstance := do
  raiseIf (i.status ≠ .active) (.workflowAlreadyCompleted i.id)
  let transition ← orRaise (.invalidTransition i.currentStepKey actionName)
    (definition.findTransition i.currentStepKey actionName)
  let targetStep ← definition.getStep transition.toStepKey
  let moved := { i with
    history := i.history ++
      [⟨some i.currentStepKey, targetStep.key, some actionName, actor, comment, now⟩]
    currentStepKey := targetStep.key }
  if targetStep.isTerminal then
    return { moved with status := .completed, completedAt := some now }
  return moved

/-- The step named by a key is an end step. -/
def IsTerminal (definition : WorkflowDefinition) (key : String) : Prop :=
  ∃ step, definition.getStep key = .ok step ∧ step.isTerminal = true

instance (definition : WorkflowDefinition) (key : String) : Decidable (IsTerminal definition key) :=
  decidable_of_iff ((definition.steps.find? (fun s => s.key = key)).any (fun s => s.isTerminal)) (by
    simp [IsTerminal, WorkflowDefinition.getStep_ok_iff, Option.any_eq_true])

end WorkflowInstance

end Orchestract
