import Orchestract.Application.Assistant
import Orchestract.Application.Presets

/-!
# Pages and responses

What the routes of `app/web/routes.py` hand to their templates, and the responses they give. The
icons, the language of the texts and the constant menus of a page follow from what is listed
here, so they are left out.
-/

namespace Orchestract

set_option autoImplicit false

/-- The organization of the path with the signed-in user and their role. -/
structure Viewer where
  organization : Organization
  user : User
  role : Role
deriving DecidableEq, Repr

structure ContractRow where
  contract : Contract
  documents : List Document
  instanceRow : WorkflowInstance
  definition : WorkflowDefinition
  stepName : String
  agentName : String
deriving DecidableEq, Repr

/-- The context of `contract_detail.html`. -/
structure ContractDetail where
  contract : Contract
  documents : List Document
  shareLinks : List ShareLink
  instanceRow : WorkflowInstance
  definition : WorkflowDefinition
  currentStepName : String
  currentAgentName : String
  actions : List WorkflowTransition
  driveConnections : List StorageConnection
  stepsTraveled : Nat
  totalSteps : Nat
  totalVersions : Nat
  canEdit : Bool
  editRoleNames : List String
  aiEnabled : Bool
  aiUnavailableReason : Option String
deriving DecidableEq, Repr

/-- A template with its context; `error` is the text shown after a refused form. -/
inductive Page where
  | dashboard (rows : List ContractRow) (inProgress completed total : Nat)
  | agents (agents : List Agent) (stepsOwned : List (Nat × Nat))
      (rolesByAgent : List (Nat × List String)) (canCreateAgent : Bool)
  | agentNew (roles : List Role) (agentNames : List (Nat × String)) (error : Option String)
  | agentEdit (agent : Agent) (roles : List Role) (agentNames : List (Nat × String))
      (error : Option String)
  | stepAgentSelect (agents : List Agent) (selectedAgentId : Option Nat) (quickError : Option String)
  | roles (roles : List Role) (agentNames : List (Nat × String))
  | roleNew (agents : List Agent) (error : Option String)
  | agentRolesField (roles : List Role) (agentNames : List (Nat × String))
      (selectedRoleIds : List Nat) (quickError : Option String)
  | roleEdit (role : Role) (agents : List Agent) (error : Option String)
  | users (users : List User) (roleNames : List (Nat × String)) (canCreateUser : Bool)
  | userNew (roles : List Role) (error : Option String)
  | userEdit (user : User) (roles : List Role) (error : Option String)
  | account (user : User) (role : Option Role) (acceptance : Option TermsAcceptance)
      (error : Option String)
  | storageSettings (connections : List StorageConnection) (googleConfigured microsoftConfigured : Bool)
      (error : Option String)
  | billingSettings (billingEnabled : Bool) (currentPlan : Plan) (userCount contractCount : Nat)
      (preselectedPlan : String) (error : Option String)
  | workflows (workflows : List WorkflowDefinition) (canCreateWorkflow : Bool)
  | workflowNew (presets : List WorkflowPreset) (error : Option String)
  | workflowDetail (workflow : WorkflowDefinition) (agents : List Agent) (issues : List String)
      (error : Option String)
  | contracts (rows : List ContractRow) (contractTypes : List String) (searchQuery activeType : String)
      (canCreateContract : Bool)
  | contractNew (workflows : List WorkflowDefinition) (error : Option String)
  | contractDetail (context : ContractDetail) (error : Option String)
  | assistantReply (context : ContractDetail) (instruction : String) (transcript : List ToolCall)
  | importBrowser (contractId : Nat) (document : Document) (connection : StorageConnection)
      (files : List ExternalFile)
deriving DecidableEq, Repr

inductive Body where
  | page (viewer : Viewer) (page : Page)
  | redirect (url : String)
  | file (data : Bytes) (mediaType filename : String) (asAttachment : Bool)
  | detail (message : String)
  | internalError
deriving DecidableEq, Repr

structure Response where
  status : Nat
  body : Body
  flash : Option String
deriving DecidableEq, Repr

namespace Response

def ok (viewer : Viewer) (page : Page) : Response := ⟨200, .page viewer page, none⟩

def unprocessable (viewer : Viewer) (page : Page) : Response := ⟨422, .page viewer page, none⟩

def redirect (url : String) : Response := ⟨303, .redirect url, none⟩

/-- `_flash` with its default level. -/
def flashed (r : Response) (message : String) : Response := { r with flash := some message }

/-- `_content_disposition_filename`. -/
def contentDispositionFilename (name : String) : String :=
  let cleaned := name.toList.filter fun c =>
    32 ≤ c.toNat && c.toNat < 127 && c.toNat ≠ 34 && c.toNat ≠ 92
  (Text.orNone (Text.strip (String.ofList cleaned))).getD "file"

/-- `_stored_file_response`; its headers are constant. -/
def storedFile (data : Bytes) (version : DocumentVersion) (download : Bool) : Response :=
  ⟨200, .file data ((Text.orNone version.contentType).getD "application/octet-stream")
    (contentDispositionFilename version.originalFilename) download, none⟩

/-- The exception handlers of `main.py`; what they do not handle is a server error. -/
def ofFailure : Failure → Response
  | .raised e => ⟨e.statusCode, .detail e.message, none⟩
  | .notAuthenticated nextPath => redirect s!"/login?next={nextPath}"
  | .termsNotAccepted => redirect "/terms/review"
  | .crashed _ => ⟨500, .internalError, none⟩

def ofResult : Except Failure Response → Response
  | .ok r => r
  | .error e => ofFailure e

end Response

end Orchestract
