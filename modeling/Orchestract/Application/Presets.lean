import Orchestract.Application.Workflows

/-!
# Workflow presets

The templates of `app/application/workflow_presets.py` and the route helper that applies one.
-/

namespace Orchestract

set_option autoImplicit false

structure PresetStep where
  key : String
  name : String
  agent : String
  description : String
  isInitial : Bool
  isTerminal : Bool
deriving DecidableEq, Repr

structure WorkflowPreset where
  key : String
  name : String
  description : String
  agents : List (String × String)
  steps : List PresetStep
  transitions : List WorkflowTransition
deriving DecidableEq, Repr

namespace WorkflowPreset

def standardContract : WorkflowPreset where
  key := "standard-contract"
  name := "Standard Contract Lifecycle"
  description :=
    "Draft → Negotiate → Sign → Store, with Renew/Amend loops and a Terminate → Archive → Destruct tail."
  agents := [
    ("Drafting", "Authors and edits the initial document draft."),
    ("Negotiation", "Negotiates terms with the counterparty."),
    ("Signatory", "Collects binding signatures."),
    ("Records Management", "Holds active, signed contracts of record."),
    ("Renewals", "Handles renewal requests for active contracts."),
    ("Amendments", "Handles amendment requests for active contracts."),
    ("Termination", "Processes contract termination."),
    ("Archive", "Retains terminated contracts for the retention period."),
    ("Destruction", "Permanently destroys contracts past retention.")]
  steps := [
    ⟨"draft", "Draft", "Drafting", "Legal authors the initial contract text.", true, false⟩,
    ⟨"negotiate", "Negotiate", "Negotiation", "Terms are discussed with the counterparty.", false, false⟩,
    ⟨"sign", "Sign", "Signatory", "Both parties collect binding signatures.", false, false⟩,
    ⟨"store", "Store", "Records Management", "The signed contract is active and on file.", false, false⟩,
    ⟨"renew", "Renew", "Renewals", "A renewal request is reviewed before expiry.", false, false⟩,
    ⟨"amend", "Amend", "Amendments", "A change to the active contract is reviewed.", false, false⟩,
    ⟨"terminate", "Terminate", "Termination", "The contract is being wound down.", false, false⟩,
    ⟨"archive", "Archive", "Archive", "Kept on file for the retention period.", false, false⟩,
    ⟨"destruct", "Destruct", "Destruction", "Permanently destroyed past retention.", false, true⟩]
  transitions := [
    ⟨"draft", "negotiate", "send_for_negotiation", none⟩,
    ⟨"negotiate", "sign", "approve", none⟩,
    ⟨"negotiate", "draft", "request_changes", none⟩,
    ⟨"sign", "store", "complete_signature", none⟩,
    ⟨"store", "renew", "request_renewal", none⟩,
    ⟨"store", "amend", "request_amendment", none⟩,
    ⟨"store", "terminate", "initiate_termination", none⟩,
    ⟨"renew", "store", "approve_renewal", none⟩,
    ⟨"renew", "terminate", "reject_renewal", none⟩,
    ⟨"amend", "store", "approve_amendment", none⟩,
    ⟨"terminate", "archive", "finalize_termination", none⟩,
    ⟨"archive", "destruct", "schedule_destruction", none⟩]

def simpleApproval : WorkflowPreset where
  key := "simple-approval"
  name := "Simple Approval"
  description :=
    "A minimal Draft → Review → Approved flow with a request-changes loop back to Draft."
  agents := [
    ("Author", "Prepares the document for review."),
    ("Reviewer", "Reviews and approves or sends the document back.")]
  steps := [
    ⟨"draft", "Draft", "Author", "The author prepares the document.", true, false⟩,
    ⟨"review", "Review", "Reviewer", "A reviewer checks the document.", false, false⟩,
    ⟨"approved", "Approved", "Reviewer", "The document is approved and final.", false, true⟩]
  transitions := [
    ⟨"draft", "review", "submit", some "Send the draft for review."⟩,
    ⟨"review", "approved", "approve", some "Approve the document."⟩,
    ⟨"review", "draft", "request_changes", some "Send it back with feedback."⟩]

def procurement : WorkflowPreset where
  key := "procurement"
  name := "Procurement Request"
  description :=
    "Request → Approval → Purchasing → Received, with a rejection loop back to the requester."
  agents := [
    ("Requester", "Raises the purchase request."),
    ("Approvals", "Approves or rejects the spend."),
    ("Purchasing", "Places the order with the supplier."),
    ("Receiving", "Confirms delivery of goods or services.")]
  steps := [
    ⟨"request", "Request", "Requester", "A purchase request is raised.", true, false⟩,
    ⟨"approval", "Approval", "Approvals", "The spend is approved or rejected.", false, false⟩,
    ⟨"purchasing", "Purchasing", "Purchasing", "The order is placed with the supplier.", false, false⟩,
    ⟨"received", "Received", "Receiving", "Goods or services are confirmed received.", false, true⟩]
  transitions := [
    ⟨"request", "approval", "submit", some "Submit the request for approval."⟩,
    ⟨"approval", "purchasing", "approve", some "Approve the spend."⟩,
    ⟨"approval", "request", "reject", some "Send it back to the requester."⟩,
    ⟨"purchasing", "received", "confirm_delivery", some "Confirm the order arrived."⟩]

end WorkflowPreset

def workflowPresets : List WorkflowPreset := [.standardContract, .simpleApproval, .procurement]

/-- `PRESETS_BY_KEY.get`. -/
def presetByKey (key : String) : Option WorkflowPreset :=
  workflowPresets.find? (fun preset => preset.key = key)

def uniqueWorkflowName (organizationId : Nat) (baseName : String) : Query String := do
  let workflows ← WorkflowService.listForOrganization organizationId
  let existingSlugs := workflows.map (fun d => d.slug)
  if Text.slugify baseName ∉ existingSlugs then return baseName
  else
    let suffix := WorkflowService.firstFree (fun n => Text.slugify s!"{baseName} {n}" ∈ existingSlugs)
      (existingSlugs.length + 1) 2
    return s!"{baseName} {suffix}"

/-- The ids in `ids` are those of the preset's own agents, by name; `known` has all of the
organization's. -/
structure PresetAgents where
  known : List (String × Nat)
  ids : List (String × Nat)

def ensureAgent (organizationId : Nat) (agents : PresetAgents) (agent : String × String) :
    Action PresetAgents := do
  match agents.known.lookup agent.1 with
  | some id => return { agents with ids := agents.ids ++ [(agent.1, id)] }
  | none =>
    let created ← AgentService.createAgent organizationId agent.1 (some agent.2)
    return ⟨agents.known ++ [(agent.1, created.id)], agents.ids ++ [(agent.1, created.id)]⟩

def addPresetStep (definitionId : Nat) (agents : PresetAgents) (step : PresetStep) :
    Action Unit := do
  match agents.ids.lookup step.agent with
  | some agentId =>
    let _ ← WorkflowService.addStep definitionId
      ⟨step.key, step.name, some step.description, agentId, step.isInitial, step.isTerminal⟩
    return ()
  | none => throw (.crashed .keyError)

def addPresetTransition (definitionId : Nat) (transition : WorkflowTransition) : Action Unit := do
  let _ ← WorkflowService.addTransition definitionId transition
  return ()

/-- Each agent, step and transition is its own unit of work. -/
def createWorkflowFromPreset (organizationId : Nat) (preset : WorkflowPreset) :
    Action WorkflowDefinition := do
  let existing ← AgentService.listAgents organizationId
  let agents ← preset.agents.foldlM (ensureAgent organizationId)
    ⟨existing.map (fun agent => (agent.name, agent.id)), []⟩
  let name ← uniqueWorkflowName organizationId preset.name
  let definition ← WorkflowService.createDefinition organizationId name (some preset.description)
  preset.steps.forM (addPresetStep definition.id agents)
  preset.transitions.forM (addPresetTransition definition.id)
  return definition

end Orchestract
