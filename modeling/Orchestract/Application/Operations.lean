import Orchestract.Application.Accounts
import Orchestract.Application.Documents
import Orchestract.Application.Presets

/-!
# The operations of the services

The methods of the application's services that change something, and what one call does to the
system. The payment provider's events and `set_plan`, which change the plan, are not among them.
A unit of work that raises has changed nothing; an upload whose commit fails has left its bytes in
the backend.
-/

namespace Orchestract

set_option autoImplicit false

inductive Operation where
  | createOrganization (name : String)
  | register (organizationName userName email rawPassword : String) (ipAddress userAgent : Option String)
  | loginOrRegisterGoogle (identity : GoogleIdentity) (termsVersion : String)
      (ipAddress userAgent : Option String)
  | createEmailVerificationToken (userId : Nat)
  | resendVerification (email : String)
  | verifyEmail (token : String)
  | createPasswordResetToken (email : String)
  | resetPassword (token newPassword : String)
  | createUser (organizationId : Nat) (name email rawPassword : String) (roleId : Nat)
  | setUserActive (userId : Nat) (active : Bool)
  | setUserRole (userId roleId : Nat)
  | setLocale (userId : Nat) (locale : Option String)
  | updateProfile (userId : Nat) (name : String) (roleId : Nat)
  | renameUser (userId : Nat) (newName : String)
  | changePassword (userId : Nat) (currentPassword newPassword : String)
  | forceVerify (userId : Nat)
  | createSession (userId : Nat)
  | recordAcceptance (userId organizationId : Nat) (ipAddress userAgent : Option String)
  | createRole (organizationId : Nat) (name : String) (description : Option String)
      (agentId : Option Nat)
  | updateRole (roleId : Nat) (name : String) (description : Option String) (agentId : Option Nat)
  | renameRole (roleId : Nat) (newName : String)
  | setRoleAgent (roleId : Nat) (agentId : Option Nat)
  | createAgent (organizationId : Nat) (name : String) (description : Option String)
  | updateAgent (agentId : Nat) (name : String) (description : Option String)
  | renameAgent (agentId : Nat) (newName : String)
  | setAgentActive (agentId : Nat) (active : Bool)
  | createDefinition (organizationId : Nat) (name : String) (description : Option String)
  | updateDetails (definitionId : Nat) (name : String) (description : Option String)
  | addStep (definitionId : Nat) (step : WorkflowStep)
  | addTransition (definitionId : Nat) (transition : WorkflowTransition)
  | activate (definitionId : Nat)
  | duplicateDefinition (definitionId : Nat)
  | createWorkflowFromPreset (organizationId : Nat) (preset : WorkflowPreset)
  | createContract (organizationId : Nat) (title contractType : String) (workflowDefinitionId : Nat)
      (actor : String) (description : Option String)
  | setContractSummary (contractId : Nat) (summary : String)
  | setAIConfig (contractId : Nat) (enabled : Option Bool) (model instructions : Option String)
      (allowedTools : Option (List String))
  | addDocument (contractId : Nat) (name : String)
  | transitionContract (contractId : Nat) (actionName actor : String) (comment : Option String)
  | setDocumentSummary (documentId : Nat) (summary : String)
  | uploadVersion (documentId : Nat) (upload : DocumentService.Upload) (commits : Bool)
  | importVersion (documentId connectionId : Nat) (externalFileId uploadedBy : String)
      (notes : Option String) (commits : Bool)
  | createLink (contractId : Nat) (scope : ShareScope) (allowDownload : Bool) (expiresInHours : Nat)
      (createdBy : String) (documentIds : List Nat) (rawPassword : Option String)
  | revokeLink (contractId linkId : Nat)
  | connectBucket (organizationId : Nat) (provider : StorageProvider) (displayName : String)
      (config : StorageConfig) (credentials : StorageSecrets)
  | setPrimary (connectionId : Nat)
  | disconnect (connectionId : Nat)
  | completeOauthConnection (organizationId : Nat) (provider : StorageProvider)
      (tokens : Option OAuthTokens)

namespace Operation

/-- A single unit of work on the world. -/
def unit {α : Type} (m : UnitOfWork α) : SystemAction Unit :=
  Action.onSystem ((fun _ => ()) <$> (liftM m : Action α))

def unitWithTokens {α : Type} (m : SystemWork α) : SystemAction Unit :=
  (fun _ => ()) <$> (liftM m : SystemAction α)

/-- An upload, whose commit may fail. -/
def upload (env : Env) (documentId : Nat) (u : DocumentService.Upload) (commits : Bool) :
    Action DocumentVersion :=
  if commits then DocumentService.uploadVersion env documentId u
  else DocumentService.uploadRolledBack env documentId u

/-- What an import uploads. -/
def imported (env : Env) (connectionId : Nat) (externalFileId uploadedBy : String)
    (notes : Option String) : Query DocumentService.Upload := do
  let connection ← StorageService.get connectionId
  let (content, filename, contentType) ←
    StorageService.importExternalFile env connectionId externalFileId
  return ⟨content, filename, contentType, uploadedBy, notes, some connection.provider,
    some externalFileId⟩

def run (env : Env) : Operation → SystemAction Unit
  | createOrganization name => unit (OrganizationService.createOrganization name)
  | register organizationName userName email rawPassword ipAddress userAgent =>
    unitWithTokens (Accounts.register env organizationName userName email rawPassword ipAddress userAgent)
  | loginOrRegisterGoogle identity termsVersion ipAddress userAgent =>
    unit (SocialAuthService.loginOrRegisterGoogle env identity termsVersion ipAddress userAgent)
  | createEmailVerificationToken userId =>
    unitWithTokens (Accounts.createEmailVerificationToken env userId)
  | resendVerification email => unitWithTokens (Accounts.resendVerification env email)
  | verifyEmail token => unitWithTokens (Accounts.verifyEmail env token)
  | createPasswordResetToken email => unitWithTokens (Accounts.createPasswordResetToken env email)
  | resetPassword token newPassword => unitWithTokens (Accounts.resetPassword env token newPassword)
  | createUser organizationId name email rawPassword roleId =>
    unit (UserService.createUser env organizationId name email rawPassword roleId)
  | setUserActive userId active => unit (UserService.setActive userId active)
  | setUserRole userId roleId => unit (UserService.setRole userId roleId)
  | setLocale userId locale => unit (UserService.setLocale userId locale)
  | updateProfile userId name roleId => unit (UserService.updateProfile userId name roleId)
  | renameUser userId newName => unit (UserService.rename userId newName)
  | changePassword userId currentPassword newPassword =>
    unit (UserService.changePassword env userId currentPassword newPassword)
  | forceVerify userId => unit (UserService.forceVerify env userId)
  | createSession userId => unit (UserService.createSession env userId)
  | recordAcceptance userId organizationId ipAddress userAgent =>
    unit (ComplianceService.recordAcceptance env userId organizationId ipAddress userAgent)
  | createRole organizationId name description agentId =>
    unit (RoleService.createRole organizationId name description agentId)
  | updateRole roleId name description agentId =>
    unit (RoleService.updateRole roleId name description agentId)
  | renameRole roleId newName => unit (RoleService.renameRole roleId newName)
  | setRoleAgent roleId agentId => unit (RoleService.setAgent roleId agentId)
  | createAgent organizationId name description =>
    unit (AgentService.createAgent organizationId name description)
  | updateAgent agentId name description => unit (AgentService.update agentId name description)
  | renameAgent agentId newName => unit (AgentService.renameAgent agentId newName)
  | setAgentActive agentId active => unit (AgentService.setActive agentId active)
  | createDefinition organizationId name description =>
    unit (WorkflowService.createDefinition organizationId name description)
  | updateDetails definitionId name description =>
    unit (WorkflowService.updateDetails definitionId name description)
  | addStep definitionId step => unit (WorkflowService.addStep definitionId step)
  | addTransition definitionId transition =>
    unit (WorkflowService.addTransition definitionId transition)
  | activate definitionId => unit (WorkflowService.activate definitionId)
  | duplicateDefinition definitionId => unit (WorkflowService.duplicateDefinition definitionId)
  | createWorkflowFromPreset organizationId preset => Action.onSystem
    ((fun _ => ()) <$> Orchestract.createWorkflowFromPreset organizationId preset)
  | createContract organizationId title contractType workflowDefinitionId actor description =>
    unit (ContractService.createContract env organizationId title contractType workflowDefinitionId
      actor description)
  | setContractSummary contractId summary => unit (ContractService.setSummary env contractId summary)
  | setAIConfig contractId enabled model instructions allowedTools =>
    unit (ContractService.setAIConfig env contractId enabled model instructions allowedTools)
  | addDocument contractId name => unit (ContractService.addDocument env contractId name)
  | transitionContract contractId actionName actor comment =>
    unit (ContractService.transitionContract env contractId actionName actor comment)
  | setDocumentSummary documentId summary =>
    unit (DocumentService.setSummary env documentId summary)
  | uploadVersion documentId u commits => Action.onSystem
    ((fun _ => ()) <$> upload env documentId u commits)
  | importVersion documentId connectionId externalFileId uploadedBy notes commits => Action.onSystem
    (do
      let u ← imported env connectionId externalFileId uploadedBy notes
      let _ ← upload env documentId u commits
      return ())
  | createLink contractId scope allowDownload expiresInHours createdBy documentIds rawPassword =>
    unit (SharingService.createLink env contractId scope allowDownload expiresInHours createdBy
      documentIds rawPassword)
  | revokeLink contractId linkId => unit (SharingService.revoke env contractId linkId)
  | connectBucket organizationId provider displayName config credentials =>
    unit (StorageService.connectBucket env organizationId provider displayName config credentials)
  | setPrimary connectionId => unit (StorageService.setPrimary connectionId)
  | disconnect connectionId => unit (StorageService.disconnect connectionId)
  | completeOauthConnection organizationId provider tokens =>
    unit (StorageService.completeOauthConnection env organizationId provider tokens)

end Operation

/-- One call, with what the process is told from outside during it. -/
structure Input where
  env : Env
  operation : Operation

/-- The system after a call. -/
def perform (s : System) (i : Input) : System := (i.operation.run i.env s).2

end Orchestract
