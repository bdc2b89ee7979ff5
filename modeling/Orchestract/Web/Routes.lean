import Orchestract.Web.Forms

/-!
# Routes

The organization's routes, each with its path ids and form fields, and how a request is served:
the organization of the path, the login gate, the route.
-/

namespace Orchestract

set_option autoImplicit false

inductive GetRoute where
  | dashboard
  | agentsPage
  | newAgentPage
  | editAgentPage (agentId : Nat)
  | rolesPage
  | newRolePage
  | editRolePage (roleId : Nat)
  | usersPage
  | newUserPage
  | editUserPage (userId : Nat)
  | accountPage
  | storageSettingsPage
  | startOauthConnection (provider : StorageProvider)
  | billingSettingsPage (plan : String)
  | workflowsPage
  | newWorkflowPage
  | workflowDetail (definitionId : Nat)
  | contractsPage (q contractType : String)
  | newContractPage
  | contractDetail (contractId : Nat)
  | importBrowserPage (contractId documentId connectionId : Nat) (folderId : Option String)
  | documentVersionRaw (contractId documentId versionId : Nat) (download : Bool)
deriving DecidableEq, Repr

inductive PostRoute where
  | createAgent (name description : String) (roleIds : List Nat)
  | updateAgent (agentId : Nat) (name description : String) (roleIds : List Nat)
  | toggleAgent (agentId : Nat)
  | quickCreateAgent (name description : String)
  | createRole (name description : String) (agentId : FormId)
  | quickCreateRole (name description : String) (roleIds : List Nat)
  | updateRole (roleId : Nat) (name description : String) (agentId : FormId)
  | createUser (name email password : String) (roleId : Nat)
  | toggleUser (userId : Nat)
  | updateUser (userId : Nat) (name : String) (roleId : Nat)
  | updateAccount (name : String)
  | updatePassword (currentPassword newPassword : String)
  | connectBucket (form : Forms.BucketForm)
  | setPrimaryConnection (connectionId : Nat)
  | disconnectConnection (connectionId : Nat)
  | startCheckout (plan : String)
  | startPortal
  | createWorkflowFromPreset (presetKey : String)
  | createWorkflow (name description : String)
  | addStep (definitionId : Nat) (step : WorkflowStep)
  | addTransition (definitionId : Nat) (transition : WorkflowTransition)
  | activateWorkflow (definitionId : Nat)
  | duplicateWorkflow (definitionId : Nat)
  | updateWorkflowDetails (definitionId : Nat) (name description : String)
  | createContract (title contractType : String) (workflowDefinitionId : Nat) (description : String)
  | executeTransition (contractId : Nat) (actionName comment : String)
  | addDocumentToContract (contractId : Nat) (name : String)
  | uploadVersion (contractId documentId : Nat) (file : Forms.UploadFile) (notes : String)
  | importVersion (contractId documentId connectionId : Nat) (externalFileId notes : String)
  | createShareLink (contractId : Nat) (scope : String) (documentIds : List Nat)
      (allowDownload password : String) (expiresInHours : Nat)
  | revokeShareLink (contractId linkId : Nat)
  | summarizeContract (contractId : Nat)
  | summarizeDocument (contractId documentId : Nat)
  | runAssistant (contractId : Nat) (instruction : String)
  | updateAIConfig (contractId : Nat) (enabled model instructions restrictTools : String)
      (allowedTools : List String)
deriving DecidableEq, Repr

def GetRoute.handle (env : Env) (v : Viewer) : GetRoute → Query Response
  | .dashboard => .ok v <$> Pages.dashboard v
  | .agentsPage => .ok v <$> Pages.agentsPage v
  | .newAgentPage => .ok v <$> Pages.newAgentPage v none
  | .editAgentPage agentId => .ok v <$> Pages.editAgentPage v agentId none
  | .rolesPage => .ok v <$> Pages.rolesPage v
  | .newRolePage => .ok v <$> Pages.newRolePage v none
  | .editRolePage roleId => .ok v <$> Pages.editRolePage v roleId none
  | .usersPage => .ok v <$> Pages.usersPage v
  | .newUserPage => .ok v <$> Pages.newUserPage v none
  | .editUserPage userId => .ok v <$> Pages.editUserPage v userId none
  | .accountPage => .ok v <$> Pages.accountPage v.user none
  | .storageSettingsPage => .ok v <$> Pages.storageSettingsPage env v none
  | .startOauthConnection provider => Pages.startOauthConnection env v provider
  | .billingSettingsPage plan => .ok v <$> Pages.billingSettingsPage env v plan none
  | .workflowsPage => .ok v <$> Pages.workflowsPage v
  | .newWorkflowPage => pure (.ok v Pages.newWorkflowPage)
  | .workflowDetail definitionId => .ok v <$> Pages.workflowDetail v definitionId none
  | .contractsPage q contractType => .ok v <$> Pages.contractsPage v q contractType
  | .newContractPage => .ok v <$> Pages.newContractPage v none
  | .contractDetail contractId => .ok v <$> Pages.contractDetail env v contractId none
  | .importBrowserPage contractId documentId connectionId folderId =>
    Pages.importBrowserPage env v contractId documentId connectionId folderId
  | .documentVersionRaw contractId documentId versionId download =>
    Pages.documentVersionRaw env v contractId documentId versionId download

def PostRoute.handle (env : Env) (v : Viewer) : PostRoute → Action Response
  | .createAgent name description roleIds => Forms.createAgent v name description roleIds
  | .updateAgent agentId name description roleIds =>
    Forms.updateAgent v agentId name description roleIds
  | .toggleAgent agentId => Forms.toggleAgent v agentId
  | .quickCreateAgent name description => Forms.quickCreateAgent v name description
  | .createRole name description agentId => Forms.createRole v name description agentId
  | .quickCreateRole name description roleIds => Forms.quickCreateRole v name description roleIds
  | .updateRole roleId name description agentId =>
    Forms.updateRole v roleId name description agentId
  | .createUser name email password roleId => Forms.createUser env v name email password roleId
  | .toggleUser userId => Forms.toggleUser v userId
  | .updateUser userId name roleId => Forms.updateUser v userId name roleId
  | .updateAccount name => Forms.updateAccount v name
  | .updatePassword currentPassword newPassword =>
    Forms.updatePassword env v currentPassword newPassword
  | .connectBucket form => Forms.connectBucket env v form
  | .setPrimaryConnection connectionId => Forms.setPrimaryConnection env v connectionId
  | .disconnectConnection connectionId => Forms.disconnectConnection env v connectionId
  | .startCheckout plan => Forms.startCheckout env v plan
  | .startPortal => Forms.startPortal env v
  | .createWorkflowFromPreset presetKey => Forms.createWorkflowFromPreset v presetKey
  | .createWorkflow name description => Forms.createWorkflow v name description
  | .addStep definitionId step => Forms.addStep v definitionId step
  | .addTransition definitionId transition => Forms.addTransition v definitionId transition
  | .activateWorkflow definitionId => Forms.activateWorkflow v definitionId
  | .duplicateWorkflow definitionId => Forms.duplicateWorkflow v definitionId
  | .updateWorkflowDetails definitionId name description =>
    Forms.updateWorkflowDetails v definitionId name description
  | .createContract title contractType workflowDefinitionId description =>
    Forms.createContract env v title contractType workflowDefinitionId description
  | .executeTransition contractId actionName comment =>
    Forms.executeTransition env v contractId actionName comment
  | .addDocumentToContract contractId name => Forms.addDocumentToContract env v contractId name
  | .uploadVersion contractId documentId file notes =>
    Forms.uploadVersion env v contractId documentId file notes
  | .importVersion contractId documentId connectionId externalFileId notes =>
    Forms.importVersion env v contractId documentId connectionId externalFileId notes
  | .createShareLink contractId scope documentIds allowDownload password expiresInHours =>
    Forms.createShareLink env v contractId scope documentIds allowDownload password expiresInHours
  | .revokeShareLink contractId linkId => Forms.revokeShareLink env v contractId linkId
  | .summarizeContract contractId => Forms.summarizeContract env v contractId
  | .summarizeDocument contractId documentId => Forms.summarizeDocument env v contractId documentId
  | .runAssistant contractId instruction => Forms.runAssistant env v contractId instruction
  | .updateAIConfig contractId enabled model instructions restrictTools allowedTools =>
    Forms.updateAIConfig env v contractId enabled model instructions restrictTools allowedTools

inductive Route where
  | get (route : GetRoute)
  | post (route : PostRoute)
deriving DecidableEq, Repr

def Route.handle (env : Env) (v : Viewer) : Route → Action Response
  | .get route => liftM (route.handle env v)
  | .post route => route.handle env v

/-- A request under `/{orgSlug}/...` with its session cookie. -/
structure Request where
  orgSlug : String
  path : String
  sessionToken : Option String
  route : Route
deriving DecidableEq, Repr

/-- The dependencies of the router: the organization of the path and the gate. -/
def dependencies (env : Env) (r : Request) : Query Viewer := do
  let organization ← OrganizationService.getBySlug r.orgSlug
  enforceLoginAndMembership env organization r.path r.sessionToken

def serve (env : Env) (r : Request) : Action Response := do
  let v ← dependencies env r
  r.route.handle env v

/-- The response to a request, and the world after it. -/
def respond (env : Env) (r : Request) (w : World) : Response × World :=
  (Response.ofResult (serve env r w).1, (serve env r w).2)

end Orchestract
