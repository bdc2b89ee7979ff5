import Orchestract.Web.Pages

/-!
# Forms

The `POST` routes of `app/web/routes.py`. Most of them try a service, render the form again with
the error's text when it raises a domain error, and else render a page with a flash message.
-/

namespace Orchestract

set_option autoImplicit false

/-- `except DomainError as exc`: the text of the error; other exceptions go on. -/
def catching {α : Type} (act : Action α) : Action (Except String α) :=
  tryCatch (Except.ok <$> act) fun failure =>
    match failure with
    | .raised e => pure (.error e.message)
    | failure => throw failure

/-- A form whose refusal shows `refused` with status 422 and whose success is `done`. -/
def submit {α : Type} (v : Viewer) (act : Action α) (refused : Option String → Query Page)
    (done : α → Action Response) : Action Response := do
  match ← catching act with
  | .ok a => done a
  | .error message =>
    let page ← refused (some message)
    return .unprocessable v page

/-- `_flash(await some_page(..), message)`. -/
def shown (v : Viewer) (page : Query Page) (message : String) : Action Response := do
  let page ← page
  return (Response.ok v page).flashed message

/-- `int(field) if field else None` of a form field. -/
inductive FormId where
  | blank
  | number (id : Nat)
  | malformed
deriving DecidableEq, Repr

def FormId.parse : FormId → Query (Option Nat)
  | .blank => pure none
  | .number id => pure (some id)
  | .malformed => throw (.crashed .valueError)

namespace Forms

/-! ## Agents and roles -/

/-- One role of `_reconcile_agent_roles`. -/
def reconcileRole (agentId : Nat) (selected : List Nat) (role : Role) : Action Unit := do
  if role.id ∈ selected ∧ role.agentId ≠ some agentId then
    let _ ← RoleService.setAgent role.id (some agentId)
    return ()
  else if role.id ∉ selected ∧ role.agentId = some agentId then
    let _ ← RoleService.setAgent role.id none
    return ()

def reconcileAgentRoles (organizationId agentId : Nat) (selectedRoleIds : List Nat) :
    Action Unit := do
  let roles ← RoleService.listRoles organizationId
  roles.forM (reconcileRole agentId selectedRoleIds)

def createAgent (v : Viewer) (name description : String) (roleIds : List Nat) : Action Response :=
  submit v
    (do
      let agent ← AgentService.createAgent v.organization.id name (Text.orNone description)
      reconcileAgentRoles v.organization.id agent.id roleIds)
    (Pages.newAgentPage v)
    fun _ => shown v (Pages.agentsPage v) "Agent created."

def updateAgent (v : Viewer) (agentId : Nat) (name description : String) (roleIds : List Nat) :
    Action Response :=
  submit v
    (do
      let _ ← AgentService.update agentId name (Text.orNone description)
      reconcileAgentRoles v.organization.id agentId roleIds)
    (Pages.editAgentPage v agentId)
    fun _ => shown v (Pages.agentsPage v) "Agent updated."

def activated (newState : Bool) : String := if newState then "activated" else "deactivated"

def toggleAgent (v : Viewer) (agentId : Nat) : Action Response := do
  let agent ← AgentService.get agentId
  let newState := !agent.isActive
  let _ ← AgentService.setActive agentId newState
  shown v (Pages.agentsPage v) s!"Agent {activated newState}."

/-- The fragment of the quick-create forms: 422 with the error, or 200 with a flash. -/
def quickResponse {α : Type} (v : Viewer) (outcome : Except String α)
    (page : Option α → Option String → Page) (message : String) : Response :=
  match outcome with
  | .ok a => (Response.ok v (page (some a) none)).flashed message
  | .error e => .unprocessable v (page none (some e))

def quickCreateAgent (v : Viewer) (name description : String) : Action Response := do
  let outcome ← catching
    (AgentService.createAgent v.organization.id name (Text.orNone description))
  let agents ← AgentService.listAgents v.organization.id
  return quickResponse v outcome
    (fun agent e => .stepAgentSelect agents (agent.map (fun a => a.id)) e) "Agent created."

def createRole (v : Viewer) (name description : String) (agentId : FormId) : Action Response :=
  submit v
    (do
      let agentId ← agentId.parse
      RoleService.createRole v.organization.id name (Text.orNone description) agentId)
    (Pages.newRolePage v)
    fun _ => shown v (Pages.rolesPage v) "Role created."

def quickCreateRole (v : Viewer) (name description : String) (roleIds : List Nat) :
    Action Response := do
  let outcome ← catching
    (RoleService.createRole v.organization.id name (Text.orNone description) none)
  let roles ← RoleService.listRoles v.organization.id
  let names ← Pages.agentNames v.organization.id
  return quickResponse v outcome
    (fun role e => .agentRolesField roles names (roleIds ++ (role.map (fun r => r.id)).toList) e)
    "Role created."

def updateRole (v : Viewer) (roleId : Nat) (name description : String) (agentId : FormId) :
    Action Response :=
  submit v
    (do
      let agentId ← agentId.parse
      RoleService.updateRole roleId name (Text.orNone description) agentId)
    (Pages.editRolePage v roleId)
    fun _ => shown v (Pages.rolesPage v) "Role updated."

/-! ## Users and the account -/

def createUser (env : Env) (v : Viewer) (name email password : String) (roleId : Nat) :
    Action Response :=
  submit v (UserService.createUser env v.organization.id name email password roleId)
    (Pages.newUserPage v)
    fun _ => shown v (Pages.usersPage v) "User created."

def toggleUser (v : Viewer) (userId : Nat) : Action Response := do
  let user ← UserService.get userId
  let newState := !user.isActive
  let _ ← UserService.setActive userId newState
  shown v (Pages.usersPage v) s!"User {activated newState}."

def updateUser (v : Viewer) (userId : Nat) (name : String) (roleId : Nat) : Action Response :=
  submit v (UserService.updateProfile userId name roleId)
    (Pages.editUserPage v userId)
    fun _ => shown v (Pages.usersPage v) "User updated."

def updateAccount (v : Viewer) (name : String) : Action Response :=
  submit v (UserService.rename v.user.id name)
    (Pages.accountPage v.user)
    fun _ => do
      let user ← UserService.get v.user.id
      shown v (Pages.accountPage user none) "Name updated."

def updatePassword (env : Env) (v : Viewer) (currentPassword newPassword : String) :
    Action Response :=
  submit v (UserService.changePassword env v.user.id currentPassword newPassword)
    (Pages.accountPage v.user)
    fun _ => shown v (Pages.accountPage v.user none) "Password updated."

/-! ## Storage and billing -/

/-- The fields of the connection form. -/
structure BucketForm where
  provider : StorageProvider
  displayName : String
  bucket : String
  region : String
  endpointUrl : String
  accessKey : String
  secretKey : String
  serviceAccountJson : String
deriving DecidableEq, Repr

/-- Config and credentials; `None` when the service account is not JSON. -/
def BucketForm.parse (env : Env) (v : Viewer) (form : BucketForm) :
    Option (StorageConfig × StorageSecrets) :=
  let keys : StorageSecrets :=
    { StorageSecrets.empty with accessKey := some form.accessKey, secretKey := some form.secretKey }
  match form.provider with
  | .local => some ({ StorageConfig.empty with keyPrefix := some v.organization.slug }, .empty)
  | .s3 => some ({ StorageConfig.empty with
      bucket := some form.bucket, region := Text.orNone form.region }, keys)
  | .minio => some ({ StorageConfig.empty with
      bucket := some form.bucket, endpointUrl := some form.endpointUrl }, keys)
  | .gcs => (env.jsonLoads form.serviceAccountJson).map fun info =>
      ({ StorageConfig.empty with bucket := some form.bucket },
        { StorageSecrets.empty with serviceAccountInfo := some info })
  | .googleDrive | .onedrive => some (.empty, .empty)

def connectBucket (env : Env) (v : Viewer) (form : BucketForm) : Action Response := do
  match form.parse env v with
  | none =>
    let page ← Pages.storageSettingsPage env v (some "Service account JSON is not valid JSON.")
    return .unprocessable v page
  | some (config, credentials) =>
    submit v
      (StorageService.connectBucket env v.organization.id form.provider form.displayName config
        credentials)
      (Pages.storageSettingsPage env v)
      fun _ => shown v (Pages.storageSettingsPage env v none) "Storage connected."

def setPrimaryConnection (env : Env) (v : Viewer) (connectionId : Nat) : Action Response :=
  submit v (StorageService.setPrimary connectionId)
    (Pages.storageSettingsPage env v)
    fun _ => shown v (Pages.storageSettingsPage env v none) "Primary storage updated."

def disconnectConnection (env : Env) (v : Viewer) (connectionId : Nat) : Action Response := do
  let _ ← StorageService.disconnect connectionId
  shown v (Pages.storageSettingsPage env v none) "Storage disconnected."

def startCheckout (env : Env) (v : Viewer) (plan : String) : Action Response := do
  let priceId := if plan = "team" then env.settings.stripePriceTeam else env.settings.stripePriceBusiness
  if ¬ BillingService.billingEnabled env ∨ priceId = "" then
    let page ← Pages.billingSettingsPage env v "" (some "Billing is not configured yet.")
    return .unprocessable v page
  -- `Plan(plan)` raises for an unknown plan
  else if plan ∉ ["free", "team", "business"] then throw (.crashed .valueError)
  else
    let url ← BillingService.startCheckout env v.organization.id priceId v.user.email
    return .redirect url

def startPortal (env : Env) (v : Viewer) : Action Response :=
  let returnUrl := s!"{env.settings.appBaseUrl}/{v.organization.slug}/settings/billing"
  tryCatch
    (do
      let url ← BillingService.startPortalSession env v.organization.id returnUrl
      return .redirect url)
    fun failure =>
      match failure with
      | .raised (.notFound message) => do
        let page ← Pages.billingSettingsPage env v "" (some message)
        return .unprocessable v page
      | failure => throw failure

/-! ## Workflows -/

def createWorkflowFromPreset (v : Viewer) (presetKey : String) : Action Response := do
  match presetByKey presetKey with
  | none =>
    let page := Page.workflowNew workflowPresets (some "That example is no longer available.")
    return .unprocessable v page
  | some preset =>
    let definition ← Orchestract.createWorkflowFromPreset v.organization.id preset
    let url := s!"/{v.organization.slug}/workflows/{definition.id}"
    return (Response.redirect url).flashed "Workflow created from example."

def createWorkflow (v : Viewer) (name description : String) : Action Response :=
  submit v (WorkflowService.createDefinition v.organization.id name (Text.orNone description))
    (fun error => pure (.workflowNew [] error))
    fun _ => shown v (Pages.workflowsPage v) "Workflow created."

def addStep (v : Viewer) (definitionId : Nat) (step : WorkflowStep) : Action Response :=
  submit v (WorkflowService.addStep definitionId
      { step with description := step.description.bind Text.orNone })
    (Pages.workflowDetail v definitionId)
    fun _ => shown v (Pages.workflowDetail v definitionId none) "Step added."

def addTransition (v : Viewer) (definitionId : Nat) (transition : WorkflowTransition) :
    Action Response :=
  submit v (WorkflowService.addTransition definitionId
      { transition with description := transition.description.bind Text.orNone })
    (Pages.workflowDetail v definitionId)
    fun _ => shown v (Pages.workflowDetail v definitionId none) "Transition added."

def activateWorkflow (v : Viewer) (definitionId : Nat) : Action Response :=
  submit v (WorkflowService.activate definitionId)
    (Pages.workflowDetail v definitionId)
    fun _ => shown v (Pages.workflowDetail v definitionId none) "Workflow activated."

def duplicateWorkflow (v : Viewer) (definitionId : Nat) : Action Response :=
  submit v (WorkflowService.duplicateDefinition definitionId)
    (Pages.workflowDetail v definitionId)
    fun copy =>
      let url := s!"/{v.organization.slug}/workflows/{copy.id}"
      return (Response.redirect url).flashed "Workflow duplicated."

def updateWorkflowDetails (v : Viewer) (definitionId : Nat) (name description : String) :
    Action Response :=
  submit v (WorkflowService.updateDetails definitionId name (Text.orNone description))
    (Pages.workflowDetail v definitionId)
    fun _ => shown v (Pages.workflowDetail v definitionId none) "Workflow updated."

/-! ## Contracts -/

/-- A form of the contract page: its refusals and its success both show the contract again. -/
def onContract {α : Type} (env : Env) (v : Viewer) (contractId : Nat) (act : Action α)
    (message : String) : Action Response :=
  submit v act (Pages.contractDetail env v contractId)
    fun _ => shown v (Pages.contractDetail env v contractId none) message

/-- `_assert_can_edit_current_step` and then the service. -/
def checked {α : Type} (v : Viewer) (contractId : Nat) (act : Action α) : Action α := do
  assertCanEditContractStep contractId v.user
  act

def createContract (env : Env) (v : Viewer) (title contractType : String)
    (workflowDefinitionId : Nat) (description : String) : Action Response :=
  submit v
    (ContractService.createContract env v.organization.id title contractType workflowDefinitionId
      v.user.name (Text.orNone description))
    (Pages.newContractPage v)
    fun contract => shown v (Pages.contractDetail env v contract.id none) "Contract created."

def executeTransition (env : Env) (v : Viewer) (contractId : Nat) (actionName comment : String) :
    Action Response :=
  onContract env v contractId
    (checked v contractId
      (ContractService.transitionContract env contractId actionName v.user.name (Text.orNone comment)))
    "Contract updated."

def addDocumentToContract (env : Env) (v : Viewer) (contractId : Nat) (name : String) :
    Action Response :=
  onContract env v contractId
    (checked v contractId (ContractService.addDocument env contractId name))
    "Document added."

/-- The uploaded file: its bytes, and the name and type the browser sent, which may be empty. -/
structure UploadFile where
  content : Bytes
  filename : String
  contentType : String
deriving DecidableEq, Repr

def uploadVersion (env : Env) (v : Viewer) (contractId documentId : Nat) (file : UploadFile)
    (notes : String) : Action Response :=
  onContract env v contractId
    (checked v contractId (DocumentService.uploadVersion env documentId
      ⟨file.content, (Text.orNone file.filename).getD "file",
        (Text.orNone file.contentType).getD "application/octet-stream", v.user.name,
        Text.orNone notes, none, none⟩))
    "New version uploaded."

def importVersion (env : Env) (v : Viewer) (contractId documentId connectionId : Nat)
    (externalFileId notes : String) : Action Response :=
  onContract env v contractId
    (checked v contractId (DocumentService.importVersionFromExternal env documentId connectionId
      externalFileId v.user.name (Text.orNone notes)))
    "Document imported."

def shareExpiryChoices : List Nat := [24, 72, 168, 720]

def createShareLink (env : Env) (v : Viewer) (contractId : Nat) (scope : String)
    (documentIds : List Nat) (allowDownload password : String) (expiresInHours : Nat) :
    Action Response :=
  onContract env v contractId
    (SharingService.createLink env contractId
      (if scope = "documents" then .documents else .contract) (allowDownload ≠ "")
      (if expiresInHours ∈ shareExpiryChoices then expiresInHours else 168) v.user.name documentIds
      (Text.orNone (Text.strip password)))
    "Share link created."

def revokeShareLink (env : Env) (v : Viewer) (contractId linkId : Nat) : Action Response := do
  SharingService.revoke env contractId linkId
  shown v (Pages.contractDetail env v contractId none) "Share link revoked."

def summarizeContract (env : Env) (v : Viewer) (contractId : Nat) : Action Response :=
  onContract env v contractId (AIService.summarizeContract env contractId v.organization)
    "Summary generated."

def summarizeDocument (env : Env) (v : Viewer) (contractId documentId : Nat) : Action Response :=
  onContract env v contractId (AIService.summarizeDocument env documentId v.organization)
    "Summary generated."

def runAssistant (env : Env) (v : Viewer) (contractId : Nat) (instruction : String) :
    Action Response := do
  let context ← Pages.contractDetailContext env v contractId
  submit v (AIService.runAssistant env contractId instruction v.user v.organization)
    (fun error => pure (.contractDetail context error))
    fun transcript => return .ok v (.assistantReply context instruction transcript)

def updateAIConfig (env : Env) (v : Viewer) (contractId : Nat) (enabled model instructions : String)
    (restrictTools : String) (allowedTools : List String) : Action Response :=
  onContract env v contractId
    (checked v contractId (ContractService.setAIConfig env contractId
      (if enabled = "on" then some true else if enabled = "off" then some false else none)
      (Text.orNone model) (Text.orNone instructions)
      (if restrictTools ≠ "" then some allowedTools else none)))
    "AI settings saved."

end Forms

/-! ## What the shapes of forms keep -/

section

variable {α : Type} {I : World → Prop} {act : Action α} (v : Viewer)

theorem keeps_catching (h : Program.Keeps I act) :
    Program.Keeps I (catching act) := by
  apply Program.keeps_tryCatch
  · exact Program.keeps_bind h fun _ => Program.keeps_pure _
  · intro failure
    cases failure with
    | raised e => exact Program.keeps_pure _
    | crashed c => exact Program.keeps_throw _
    | notAuthenticated nextPath => exact Program.keeps_throw _
    | termsNotAccepted => exact Program.keeps_throw _

theorem keeps_submit {refused : Option String → Query Page} {done : α → Action Response}
    (h : Program.Keeps I act) (hdone : ∀ a, Program.Keeps I (done a)) :
    Program.Keeps I (submit v act refused done) := by
  refine Program.keeps_bind (keeps_catching h) fun outcome => ?_
  cases outcome with
  | ok a => exact hdone a
  | error message => exact Program.keeps_after_read fun _ => Program.keeps_pure _

theorem catching_apply (act : Action α) (w : World) :
    catching act w =
      match (act w).1 with
      | .ok a => (.ok (.ok a), (act w).2)
      | .error (.raised e) => (.ok (.error e.message), (act w).2)
      | .error failure => (.error failure, (act w).2) := by
  unfold catching
  rw [Program.tryCatch_apply, map_eq_pure_bind, Program.bind_apply]
  cases (act w).1 with
  | ok a => rfl
  | error failure => cases failure <;> rfl

/-- A form whose pages change nothing leaves the world as its service does. -/
theorem submit_world {refused : Option String → Query Page} {done : α → Action Response}
    (hdone : ∀ a w, (done a w).2 = w) (w : World) : (submit v act refused done w).2 = (act w).2 := by
  unfold submit
  rw [Program.bind_apply, catching_apply]
  cases (act w).1 with
  | ok a => exact hdone a _
  | error failure =>
    cases failure with
    | raised e =>
      change ((liftM (refused (some e.message)) >>= fun page =>
        pure (Response.unprocessable v page) : Action Response) (act w).2).2 = (act w).2
      rw [Program.bind_apply, Program.read_apply]
      cases refused (some e.message) (act w).2 <;> rfl
    | crashed c => rfl
    | notAuthenticated nextPath => rfl
    | termsNotAccepted => rfl

theorem shown_world (page : Query Page) (message : String) (w : World) :
    (shown v page message w).2 = w := by
  unfold shown
  rw [Program.bind_apply, Program.read_apply]
  cases page w <;> rfl

theorem onContract_world (env : Env) (contractId : Nat) (message : String) (w : World) :
    (Forms.onContract env v contractId act message w).2 = (act w).2 :=
  submit_world v (fun _ _ => shown_world v _ _ _) w

theorem keeps_shown (page : Query Page) (message : String) :
    Program.Keeps I (shown v page message) :=
  Program.keeps_after_read fun _ => Program.keeps_pure _

/-- A form around one unit of work. -/
theorem keeps_form {m : UnitOfWork α} {refused : Option String → Query Page} {page : α → Query Page}
    {message : String} (h : Work.Keeps I m) :
    Program.Keeps I (submit v (liftM m) refused fun a => shown v (page a) message) :=
  keeps_submit v (Program.keeps_work h) fun _ => keeps_shown v _ _

theorem keeps_onContract (env : Env) (contractId : Nat) (message : String)
    (h : Program.Keeps I act) :
    Program.Keeps I (Forms.onContract env v contractId act message) :=
  keeps_submit v h fun _ => keeps_shown v _ _

theorem keeps_checked (contractId : Nat) (h : Program.Keeps I act) :
    Program.Keeps I (Forms.checked v contractId act) :=
  Program.keeps_after_read fun _ => h

end

end Orchestract
