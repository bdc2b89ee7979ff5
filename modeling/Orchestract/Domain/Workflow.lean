import Orchestract.Domain.Errors
import Orchestract.Domain.Text
import Orchestract.Library.Exceptions

/-!
# Workflow definitions

The aggregate of `app/domain/workflow/models.py`. A method that mutates the aggregate returns
the new one, or the error it raises; a raising method has changed nothing.
-/

namespace Orchestract

set_option autoImplicit false

inductive WorkflowStatus where
  | draft
  | active
  | retired
deriving DecidableEq, Repr

/-- A node of the graph. -/
structure WorkflowStep where
  key : String
  name : String
  description : Option String
  agentId : Nat
  isInitial : Bool
  isTerminal : Bool
deriving DecidableEq, Repr

/-- A directed edge, keyed by an action name. -/
structure WorkflowTransition where
  fromStepKey : String
  toStepKey : String
  actionName : String
  description : Option String
deriving DecidableEq, Repr

structure WorkflowDefinition where
  id : Nat
  organizationId : Nat
  name : String
  slug : String
  description : Option String
  status : WorkflowStatus
  steps : List WorkflowStep
  transitions : List WorkflowTransition
deriving DecidableEq, Repr

namespace WorkflowDefinition

def create (organizationId : Nat) (name : String) (description : Option String) :
    Except DomainError WorkflowDefinition := do
  let name := Text.strip name
  raiseIf (name = "") .emptyWorkflowName
  return {
    id := 0
    organizationId := organizationId
    name := name
    slug := Text.slugify name
    description := description
    status := .draft
    steps := []
    transitions := [] }

/-- Name and description are metadata: they stay editable in any status. -/
def rename (d : WorkflowDefinition) (newName : String) : Except DomainError WorkflowDefinition := do
  let newName := Text.strip newName
  raiseIf (newName = "") .emptyWorkflowName
  return { d with name := newName, slug := Text.slugify newName }

def setDescription (d : WorkflowDefinition) (description : Option String) : WorkflowDefinition :=
  { d with description := description }

def requireDraft (d : WorkflowDefinition) : Except DomainError Unit :=
  raiseIf (d.status ≠ .draft) (.workflowDefinitionLocked d.id)

def getStep (d : WorkflowDefinition) (key : String) : Except DomainError WorkflowStep :=
  orRaise (.unknownStep key) (d.steps.find? (fun step => step.key = key))

def addStep (d : WorkflowDefinition) (step : WorkflowStep) : Except DomainError WorkflowDefinition := do
  d.requireDraft
  raiseIf (d.steps.any (fun s => s.key = step.key)) (.duplicateStepKey step.key)
  raiseIf (step.isInitial && d.steps.any (fun s => s.isInitial)) .multipleInitialSteps
  return { d with steps := d.steps ++ [step] }

def addTransition (d : WorkflowDefinition) (transition : WorkflowTransition) :
    Except DomainError WorkflowDefinition := do
  d.requireDraft
  let _ ← d.getStep transition.fromStepKey
  let _ ← d.getStep transition.toStepKey
  raiseIf (d.transitions.any (fun t =>
      t.fromStepKey = transition.fromStepKey && t.actionName = transition.actionName))
    (.ambiguousTransition transition.fromStepKey transition.actionName)
  return { d with transitions := d.transitions ++ [transition] }

def transitionsFrom (d : WorkflowDefinition) (stepKey : String) : List WorkflowTransition :=
  d.transitions.filter (fun t => t.fromStepKey = stepKey)

def findTransition (d : WorkflowDefinition) (stepKey actionName : String) :
    Option WorkflowTransition :=
  (d.transitionsFrom stepKey).find? (fun t => t.actionName = actionName)

def initialStep (d : WorkflowDefinition) : Except DomainError WorkflowStep :=
  orRaise (.workflowValidation "workflow has no initial step")
    (d.steps.find? (fun step => step.isInitial))

end WorkflowDefinition

end Orchestract
