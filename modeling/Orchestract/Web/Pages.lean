import Mathlib.Data.List.Infix
import Orchestract.Web.Responses

/-!
# The login gate and the pages

The dependency of `app/api/deps.py` behind every organization route, and the `GET` routes of
`app/web/routes.py`.
-/

namespace Orchestract

set_option autoImplicit false

def enforceLoginAndMembership (env : Env) (organization : Organization) (path : String)
    (sessionToken : Option String) : Query Viewer := do
  let found ← (match sessionToken.bind Text.orNone with
    | some token => UserService.getUserBySessionToken env token
    | none => pure none : Query (Option User))
  match found with
  | none => throw (.notAuthenticated path)
  | some user =>
    if user.organizationId ≠ organization.id then
      throw (.notAuthenticated ("/" ++ organization.slug ++ "/"))
    else
      let accepted ← ComplianceService.hasAcceptedCurrent user.id
      if accepted then
        let role ← RoleService.get user.roleId
        return ⟨organization, user, role⟩
      else throw .termsNotAccepted

namespace Pages

/-! ## Helpers of the routes -/

def agentNames (organizationId : Nat) : Query (List (Nat × String)) := do
  let agents ← AgentService.listAgents organizationId
  return agents.map (fun agent => (agent.id, agent.name))

def stepAndAgent (definition : WorkflowDefinition) (stepKey : String)
    (agentNames : List (Nat × String)) : Except DomainError (String × String) := do
  let step ← definition.getStep stepKey
  return (step.name, (agentNames.lookup step.agentId).getD s!"agent #{step.agentId}")

/-- One turn of the loop of `_contract_rows_with_step_info`. -/
def contractRow (agentNames : List (Nat × String)) (contract : Contract) : Query ContractRow := do
  let i ← ContractService.getInstance contract.id
  let definition ← WorkflowService.get i.workflowDefinitionId
  let names ← stepAndAgent definition i.currentStepKey agentNames
  let documents ← ContractService.documentsOf contract.id
  return ⟨contract, documents, i, definition, names.1, names.2⟩

def contractRowsWithStepInfo (organizationId : Nat) (contracts : List Contract) :
    Query (List ContractRow) := do
  let names ← agentNames organizationId
  contracts.mapM (contractRow names)

def stepsOwnedByAgent (organizationId : Nat) : Query (List (Nat × Nat)) := do
  let definitions ← WorkflowService.listForOrganization organizationId
  let owners := definitions.flatMap (fun d => d.steps.map (fun step => step.agentId))
  return owners.eraseDups.map (fun agentId => (agentId, owners.count agentId))

def rolesByAgent (organizationId : Nat) : Query (List (Nat × List String)) := do
  let roles ← RoleService.listRoles organizationId
  let linked := roles.filterMap (fun role => role.agentId)
  return linked.eraseDups.map fun agentId =>
    (agentId, (roles.filter (fun role => role.agentId = some agentId)).map (fun role => role.name))

/-! ## Pages -/

def dashboard (v : Viewer) : Query Page := do
  let contracts ← ContractService.listForOrganization v.organization.id
  let rows ← contractRowsWithStepInfo v.organization.id contracts
  let activeCount := rows.countP (fun row => row.instanceRow.status = .active)
  return .dashboard rows activeCount (rows.length - activeCount) rows.length

def agentsPage (v : Viewer) : Query Page := do
  let agents ← AgentService.listAgents v.organization.id
  let stepsOwned ← stepsOwnedByAgent v.organization.id
  let byAgent ← rolesByAgent v.organization.id
  return .agents agents stepsOwned byAgent (v.organization.plan.limits.canAddAgent agents.length)

def newAgentPage (v : Viewer) (error : Option String) : Query Page := do
  let roles ← RoleService.listRoles v.organization.id
  let names ← agentNames v.organization.id
  return .agentNew roles names error

def editAgentPage (v : Viewer) (agentId : Nat) (error : Option String) : Query Page := do
  let agent ← AgentService.get agentId
  let roles ← RoleService.listRoles v.organization.id
  let names ← agentNames v.organization.id
  return .agentEdit agent roles names error

def rolesPage (v : Viewer) : Query Page := do
  let roles ← RoleService.listRoles v.organization.id
  let names ← agentNames v.organization.id
  return .roles roles names

def newRolePage (v : Viewer) (error : Option String) : Query Page := do
  let agents ← AgentService.listAgents v.organization.id
  return .roleNew agents error

def editRolePage (v : Viewer) (roleId : Nat) (error : Option String) : Query Page := do
  let role ← RoleService.get roleId
  let agents ← AgentService.listAgents v.organization.id
  return .roleEdit role agents error

def usersPage (v : Viewer) : Query Page := do
  let users ← UserService.listUsers v.organization.id
  let roles ← RoleService.listRoles v.organization.id
  return .users users (roles.map (fun role => (role.id, role.name)))
    (v.organization.plan.limits.canAddUser users.length)

def newUserPage (v : Viewer) (error : Option String) : Query Page := do
  let roles ← RoleService.listRoles v.organization.id
  return .userNew roles error

def editUserPage (v : Viewer) (userId : Nat) (error : Option String) : Query Page := do
  let user ← UserService.get userId
  let roles ← RoleService.listRoles v.organization.id
  return .userEdit user roles error

/-- `_account_context` of a user. -/
def accountPage (user : User) (error : Option String) : Query Page := do
  let role ← (if user.roleId = 0 then pure none else some <$> RoleService.get user.roleId :
    Query (Option Role))
  let acceptance ← ComplianceService.latestAcceptance user.id
  return .account user role acceptance error

def storageSettingsPage (env : Env) (v : Viewer) (error : Option String) : Query Page := do
  let connections ← StorageService.listConnections v.organization.id
  return .storageSettings connections (env.settings.googleOauthClientId ≠ "")
    (env.settings.microsoftOauthClientId ≠ "") error

def billingSettingsPage (env : Env) (v : Viewer) (plan : String) (error : Option String) :
    Query Page := do
  let users ← UserService.listUsers v.organization.id
  let contracts ← ContractService.listForOrganization v.organization.id
  return .billingSettings (BillingService.billingEnabled env) v.organization.plan users.length
    contracts.length plan error

def workflowsPage (v : Viewer) : Query Page := do
  let workflows ← WorkflowService.listForOrganization v.organization.id
  return .workflows workflows (v.organization.plan.limits.canAddWorkflow workflows.length)

def newWorkflowPage : Page := .workflowNew workflowPresets none

def workflowDetail (v : Viewer) (definitionId : Nat) (error : Option String) : Query Page := do
  let workflow ← WorkflowService.get definitionId
  let agents ← AgentService.listAgents v.organization.id
  let issues ← WorkflowService.getValidationIssues definitionId
  return .workflowDetail workflow agents issues error

/-- Whether `needle` occurs in a text. -/
def contains (text needle : String) : Bool := decide (needle.toList <:+: text.toList)

/-- The contracts that the search and the type filter leave. -/
def matching (q contractType : String) (contracts : List Contract) : List Contract :=
  let found := if q = "" then contracts
    else contracts.filter (fun c => contains (Text.lower c.title) (Text.lower q))
  if contractType = "" then found else found.filter (fun c => c.contractType = contractType)

def contractsPage (v : Viewer) (q contractType : String) : Query Page := do
  let allContracts ← ContractService.listForOrganization v.organization.id
  let contractTypes := orderByText id (allContracts.map (fun c => c.contractType)).dedup
  let rows ← contractRowsWithStepInfo v.organization.id (matching q contractType allContracts)
  return .contracts rows contractTypes q contractType
    (v.organization.plan.limits.canAddContract allContracts.length)

def newContractPage (v : Viewer) (error : Option String) : Query Page := do
  let workflows ← WorkflowService.listForOrganization v.organization.id
  return .contractNew (workflows.filter (fun d => d.status = .active)) error

/-- `_contract_detail_context` of the loaded rows. It is the context as a whole: the page prints the names
of the roles only where there are actions and the viewer may not act. -/
def contractDetailOf (env : Env) (v : Viewer) (contract : Contract) (documents : List Document)
    (i : WorkflowInstance) (definition : WorkflowDefinition) : Query ContractDetail := do
  let names ← agentNames v.organization.id
  let stepName ← stepAndAgent definition i.currentStepKey names
  let connections ← StorageService.listConnections v.organization.id
  let step ← definition.getStep i.currentStepKey
  let canEdit ← RoleService.canEditStep v.user step.agentId
  let editRoles ← RoleService.listForAgent step.agentId
  let links ← SharingService.listForContract contract.id
  return {
    contract := contract
    documents := documents
    shareLinks := links.filter (fun link => link.isActive env.now)
    instanceRow := i
    definition := definition
    currentStepName := stepName.1
    currentAgentName := stepName.2
    actions := i.availableActions definition
    driveConnections := connections.filter (fun c => c.provider.isReadOnly && c.status = .connected)
    stepsTraveled := (i.history.map (fun e => e.toStepKey)).dedup.length
    totalSteps := definition.steps.length
    totalVersions := documents.foldl (fun total d => total + d.versions.length) 0
    canEdit := canEdit
    editRoleNames := editRoles.map (fun role => role.name)
    aiEnabled := AIService.isAvailable env v.organization contract
    aiUnavailableReason := AIService.unavailableReason env v.organization contract }

def contractDetailContext (env : Env) (v : Viewer) (contractId : Nat) : Query ContractDetail := do
  let contract ← ContractService.get contractId
  let documents ← ContractService.documentsOf contractId
  let i ← ContractService.getInstance contractId
  let definition ← WorkflowService.get i.workflowDefinitionId
  contractDetailOf env v contract documents i definition

def contractDetail (env : Env) (v : Viewer) (contractId : Nat) (error : Option String) :
    Query Page := do
  let context ← contractDetailContext env v contractId
  return .contractDetail context error

/-- `None` when the check refuses, which redirects to the contract. -/
def permitted (contractId : Nat) (user : User) : Query Bool := fun w =>
  match assertCanEditContractStep contractId user w with
  | .ok _ => .ok true
  | .error (.raised .permissionDenied) => .ok false
  | .error e => .error e

def importBrowserPage (env : Env) (v : Viewer) (contractId documentId connectionId : Nat)
    (folderId : Option String) : Query Response := do
  if ← permitted contractId v.user then
    let document ← DocumentService.get documentId
    let connection ← StorageService.get connectionId
    let files ← StorageService.browseExternalFiles env connectionId folderId
    return .ok v (.importBrowser contractId document connection files)
  else
    return .redirect s!"/{v.organization.slug}/contracts/{contractId}"

def documentVersionRaw (env : Env) (v : Viewer) (contractId documentId versionId : Nat)
    (download : Bool) : Query Response := do
  let contract ← ContractService.get contractId
  let document ← DocumentService.get documentId
  let found := document.versions.find? (fun version => version.id = versionId)
  raiseIf (contract.organizationId ≠ v.organization.id ∨ document.contractId ≠ contractId)
    (DomainError.notFound "file version not found")
  let version ← orRaise (DomainError.notFound "file version not found") found
  let data ← DocumentService.downloadVersion env version
  return .storedFile data version download

def startOauthConnection (env : Env) (v : Viewer) (provider : StorageProvider) : Query Response := do
  let url ← StorageService.startOauthConnection env v.organization.id provider
  return .redirect url

end Pages

end Orchestract
