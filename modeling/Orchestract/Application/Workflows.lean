import Orchestract.Application.People
import Orchestract.Domain.Validation

/-!
# Workflows

The service of `app/application/workflow_service.py`.
-/

namespace Orchestract.WorkflowService

set_option autoImplicit false

def get (definitionId : Nat) : Query WorkflowDefinition :=
  require "workflow definition" definitionId

def listForOrganization (organizationId : Nat) : Query (List WorkflowDefinition) := do
  let rows ← select (fun d : WorkflowDefinition => d.organizationId = organizationId)
  return orderByText WorkflowDefinition.name rows

def getBySlug (organizationId : Nat) (slug : String) : Query (Option WorkflowDefinition) :=
  oneOrNone (fun d : WorkflowDefinition => d.organizationId = organizationId && d.slug = slug)

def createDefinition (organizationId : Nat) (name : String) (description : Option String) :
    UnitOfWork WorkflowDefinition := do
  let organization ← OrganizationService.get organizationId
  requireRoom organization PlanLimits.maxWorkflows "workflows" (listForOrganization organizationId)
  let definition ← WorkflowDefinition.create organizationId name description
  add definition

def updateDetails (definitionId : Nat) (name : String) (description : Option String) :
    UnitOfWork WorkflowDefinition := do
  let definition ← get definitionId
  let trimmed := Text.strip name
  let clash ← (if trimmed = "" then pure none
    else getBySlug definition.organizationId (Text.slugify trimmed) : Query (Option WorkflowDefinition))
  raiseIf (clash.any (fun d => d.id ≠ definitionId)) (DomainError.duplicateWorkflowName trimmed)
  let definition ← definition.rename name
  let definition := definition.setDescription description
  save definition
  return definition

def addStep (definitionId : Nat) (step : WorkflowStep) : UnitOfWork WorkflowDefinition :=
  change "workflow definition" definitionId fun definition => definition.addStep step

def addTransition (definitionId : Nat) (transition : WorkflowTransition) :
    UnitOfWork WorkflowDefinition :=
  change "workflow definition" definitionId fun definition => definition.addTransition transition

def activate (definitionId : Nat) : UnitOfWork WorkflowDefinition :=
  change "workflow definition" definitionId fun definition => definition.activate

/-- `suffix = 2` and `while taken(suffix): suffix += 1`. -/
def firstFree (taken : Nat → Bool) : Nat → Nat → Nat
  | 0, suffix => suffix
  | fuel + 1, suffix => if taken suffix then firstFree taken fuel (suffix + 1) else suffix

def uniqueCopyName (baseName : String) (existingSlugs : List String) : String :=
  if Text.slugify s!"{baseName} (copy)" ∉ existingSlugs then s!"{baseName} (copy)"
  else
    let suffix := firstFree (fun n => Text.slugify s!"{baseName} (copy {n})" ∈ existingSlugs)
      (existingSlugs.length + 1) 2
    s!"{baseName} (copy {suffix})"

/-- The replay of the steps and transitions into the copy. -/
def replay (source copy : WorkflowDefinition) : Except DomainError WorkflowDefinition := do
  let copy ← source.steps.foldlM (fun d step => d.addStep step) copy
  source.transitions.foldlM (fun d transition => d.addTransition transition) copy

def duplicateDefinition (definitionId : Nat) : UnitOfWork WorkflowDefinition := do
  let source ← get definitionId
  let existing ← listForOrganization source.organizationId
  let copy ← WorkflowDefinition.create source.organizationId
    (uniqueCopyName source.name (existing.map (fun d => d.slug))) source.description
  let copy ← replay source copy
  add copy

def getValidationIssues (definitionId : Nat) : Query (List String) := do
  let definition ← get definitionId
  return definition.findValidationIssues

end Orchestract.WorkflowService
