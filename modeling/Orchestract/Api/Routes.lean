import Orchestract.Web.Forms
import Orchestract.Web.RootRoutes

/-!
# The JSON API

The routers of `app/api/routers` with the responses of `app/api/schemas.py`. A request is not signed
in: it names its organization in a header, or a row by its id. Ids of steps, transitions and history
entries are left out of the responses, as they are of the rows.
-/

namespace Orchestract

set_option autoImplicit false

namespace Api

structure OrganizationOut where
  id : Nat
  name : String
  slug : String
deriving DecidableEq, Repr

structure DocumentVersionOut where
  id : Nat
  versionNo : Nat
  storageKey : String
  originalFilename : String
  contentType : String
  sizeBytes : Nat
  sourceProvider : Option StorageProvider
  sourceExternalId : Option String
  uploadedBy : String
  notes : Option String
  createdAt : Nat
deriving DecidableEq, Repr

structure DocumentOut where
  id : Nat
  contractId : Nat
  name : String
  currentVersionNo : Nat
  summary : Option String
  summaryGeneratedAt : Option Nat
  createdAt : Nat
  updatedAt : Nat
  versions : List DocumentVersionOut
deriving DecidableEq, Repr

structure ContractOut where
  contract : Contract
  documents : List DocumentOut
deriving DecidableEq, Repr

structure StorageConnectionOut where
  id : Nat
  organizationId : Nat
  provider : StorageProvider
  status : ConnectionStatus
  isPrimary : Bool
  displayName : String
  config : StorageConfig
  createdAt : Nat
deriving DecidableEq, Repr

def organizationOut (o : Organization) : OrganizationOut := ⟨o.id, o.name, o.slug⟩

def versionOut (v : DocumentVersion) : DocumentVersionOut :=
  ⟨v.id, v.versionNo, v.storageKey, v.originalFilename, v.contentType, v.sizeBytes, v.sourceProvider,
    v.sourceExternalId, v.uploadedBy, v.notes, v.createdAt⟩

def documentOut (d : Document) : DocumentOut :=
  ⟨d.id, d.contractId, d.name, d.currentVersionNo, d.summary, d.summaryGeneratedAt, d.createdAt, d.updatedAt,
    d.versions.map versionOut⟩

def connectionOut (c : StorageConnection) : StorageConnectionOut :=
  ⟨c.id, c.organizationId, c.provider, c.status, c.isPrimary, c.displayName, c.config, c.createdAt⟩

inductive Json where
  | organization (organization : OrganizationOut)
  | organizations (organizations : List OrganizationOut)
  | agent (agent : Agent)
  | agents (agents : List Agent)
  | definition (definition : WorkflowDefinition)
  | definitions (definitions : List WorkflowDefinition)
  | contract (contract : ContractOut)
  | contracts (contracts : List ContractOut)
  | instance (instanceRow : WorkflowInstance)
  | actions (actions : List WorkflowTransition)
  | document (document : DocumentOut)
  | version (version : DocumentVersionOut)
  | connection (connection : StorageConnectionOut)
  | connections (connections : List StorageConnectionOut)
  | authorizationUrl (url : String)
  | files (files : List ExternalFile)
  | detail (message : String)
  | internalError
deriving DecidableEq, Repr

structure JsonResponse where
  status : Nat
  body : Json
deriving DecidableEq, Repr

namespace JsonResponse

def ok (body : Json) : JsonResponse := ⟨200, body⟩

def created (body : Json) : JsonResponse := ⟨201, body⟩

/-- The exception handlers of `main.py`; nothing here asks for a sign-in. -/
def ofFailure : Failure → JsonResponse
  | .raised e => ⟨e.statusCode, .detail e.message⟩
  | _ => ⟨500, .internalError⟩

def ofResult : Except Failure JsonResponse → JsonResponse
  | .ok r => r
  | .error e => ofFailure e

end JsonResponse

/-- `organizationId` is the header `X-Organization-Id`. -/
inductive ApiRequest where
  | createOrganization (name : String)
  | listOrganizations
  | getOrganization (slug : String)
  | createAgent (organizationId : Nat) (name : String) (description : Option String)
  | listAgents (organizationId : Nat)
  | renameAgent (agentId : Nat) (name : String)
  | setAgentActive (agentId : Nat) (active : Bool)
  | createDefinition (organizationId : Nat) (name : String) (description : Option String)
  | listDefinitions (organizationId : Nat)
  | getDefinition (definitionId : Nat)
  | addStep (definitionId : Nat) (step : WorkflowStep)
  | addTransition (definitionId : Nat) (transition : WorkflowTransition)
  | activateDefinition (definitionId : Nat)
  | createContract (organizationId : Nat) (title contractType : String) (workflowDefinitionId : Nat) (actor : String)
      (description : Option String)
  | listContracts (organizationId : Nat)
  | getContract (contractId : Nat)
  | getInstance (contractId : Nat)
  | getAvailableActions (contractId : Nat)
  | executeTransition (contractId : Nat) (actionName actor : String) (comment : Option String)
  | addDocument (contractId : Nat) (name : String)
  | getDocument (documentId : Nat)
  | uploadVersion (documentId : Nat) (file : Forms.UploadFile) (uploadedBy : String) (notes : Option String)
  | importVersion (documentId connectionId : Nat) (externalFileId uploadedBy : String) (notes : Option String)
  | connectBucket (organizationId : Nat) (provider : StorageProvider) (displayName : String) (config : StorageConfig)
      (credentials : StorageSecrets)
  | listConnections (organizationId : Nat)
  | startOauth (organizationId : Nat) (provider : StorageProvider)
  | oauthCallback (code state : String)
  | setPrimary (connectionId : Nat)
  | disconnect (connectionId : Nat)
  | browseFiles (connectionId : Nat) (folderId : Option String)

def listOrganizations : Query (List Organization) := do
  let rows ← select (fun _ : Organization => true)
  return orderByText Organization.name rows

def contractOut (contract : Contract) : Query ContractOut := do
  let documents ← ContractService.documentsOf contract.id
  return ⟨contract, documents.map documentOut⟩

/-- `complete_oauth_connection` of the two parameters of the callback. -/
def completeOauth (env : Env) (tokens : StorageProvider → String → Option OAuthTokens) (code state : String) :
    UnitOfWork StorageConnection := do
  let (organizationId, provider) ← (RootRoutes.parseOauthState state : Query (Int × StorageProvider))
  match organizationId with
  | .negSucc _ => (throw (.crashed .integrityError) : Query StorageConnection)
  | .ofNat organizationId => StorageService.completeOauthConnection env organizationId provider (tokens provider code)

def handle (env : Env) (tokens : StorageProvider → String → Option OAuthTokens) : ApiRequest → Action JsonResponse
  | .createOrganization name => do
    let organization ← OrganizationService.createOrganization name
    return .created (.organization (organizationOut organization))
  | .listOrganizations => do
    let organizations ← listOrganizations
    return .ok (.organizations (organizations.map organizationOut))
  | .getOrganization slug => do
    let organization ← OrganizationService.getBySlug slug
    return .ok (.organization (organizationOut organization))
  | .createAgent organizationId name description => do
    let organization ← OrganizationService.get organizationId
    let agent ← AgentService.createAgent organization.id name description
    return .created (.agent agent)
  | .listAgents organizationId => do
    let organization ← OrganizationService.get organizationId
    let agents ← AgentService.listAgents organization.id
    return .ok (.agents agents)
  | .renameAgent agentId name => do
    let agent ← AgentService.renameAgent agentId name
    return .ok (.agent agent)
  | .setAgentActive agentId active => do
    let agent ← AgentService.setActive agentId active
    return .ok (.agent agent)
  | .createDefinition organizationId name description => do
    let organization ← OrganizationService.get organizationId
    let definition ← WorkflowService.createDefinition organization.id name description
    return .created (.definition definition)
  | .listDefinitions organizationId => do
    let organization ← OrganizationService.get organizationId
    let definitions ← WorkflowService.listForOrganization organization.id
    return .ok (.definitions definitions)
  | .getDefinition definitionId => do
    let definition ← WorkflowService.get definitionId
    return .ok (.definition definition)
  | .addStep definitionId step => do
    let definition ← WorkflowService.addStep definitionId step
    return .created (.definition definition)
  | .addTransition definitionId transition => do
    let definition ← WorkflowService.addTransition definitionId transition
    return .created (.definition definition)
  | .activateDefinition definitionId => do
    let definition ← WorkflowService.activate definitionId
    return .ok (.definition definition)
  | .createContract organizationId title contractType workflowDefinitionId actor description => do
    let organization ← OrganizationService.get organizationId
    let contract ← ContractService.createContract env organization.id title contractType workflowDefinitionId actor
      description
    let out ← contractOut contract
    return .created (.contract out)
  | .listContracts organizationId => do
    let organization ← OrganizationService.get organizationId
    let contracts ← ContractService.listForOrganization organization.id
    let outs ← (contracts.mapM contractOut : Query (List ContractOut))
    return .ok (.contracts outs)
  | .getContract contractId => do
    let contract ← ContractService.get contractId
    let out ← contractOut contract
    return .ok (.contract out)
  | .getInstance contractId => do
    let i ← ContractService.getInstance contractId
    return .ok (.instance i)
  | .getAvailableActions contractId => do
    let actions ← ContractService.availableActions contractId
    return .ok (.actions actions)
  | .executeTransition contractId actionName actor comment => do
    let i ← ContractService.transitionContract env contractId actionName actor comment
    return .ok (.instance i)
  | .addDocument contractId name => do
    let document ← ContractService.addDocument env contractId name
    return .created (.document (documentOut document))
  | .getDocument documentId => do
    let document ← DocumentService.get documentId
    return .ok (.document (documentOut document))
  | .uploadVersion documentId file uploadedBy notes => do
    let version ← DocumentService.uploadVersion env documentId
      ⟨file.content, (Text.orNone file.filename).getD "file",
        (Text.orNone file.contentType).getD "application/octet-stream", uploadedBy, notes, none, none⟩
    return .created (.version (versionOut version))
  | .importVersion documentId connectionId externalFileId uploadedBy notes => do
    let version ← DocumentService.importVersionFromExternal env documentId connectionId externalFileId uploadedBy notes
    return .created (.version (versionOut version))
  | .connectBucket organizationId provider displayName config credentials => do
    let organization ← OrganizationService.get organizationId
    let connection ← StorageService.connectBucket env organization.id provider displayName config credentials
    return .created (.connection (connectionOut connection))
  | .listConnections organizationId => do
    let organization ← OrganizationService.get organizationId
    let connections ← StorageService.listConnections organization.id
    return .ok (.connections (connections.map connectionOut))
  | .startOauth organizationId provider => do
    let organization ← OrganizationService.get organizationId
    let url ← StorageService.startOauthConnection env organization.id provider
    return .ok (.authorizationUrl url)
  | .oauthCallback code state => do
    let connection ← completeOauth env tokens code state
    return .ok (.connection (connectionOut connection))
  | .setPrimary connectionId => do
    let connection ← StorageService.setPrimary connectionId
    return .ok (.connection (connectionOut connection))
  | .disconnect connectionId => do
    let connection ← StorageService.disconnect connectionId
    return .ok (.connection (connectionOut connection))
  | .browseFiles connectionId folderId => do
    let files ← StorageService.browseExternalFiles env connectionId folderId
    return .ok (.files files)

/-- The response, and the world it leaves. -/
def respond (env : Env) (tokens : StorageProvider → String → Option OAuthTokens) (r : ApiRequest) (w : World) :
    JsonResponse × World :=
  (.ofResult (handle env tokens r w).1, (handle env tokens r w).2)

end Api

end Orchestract
