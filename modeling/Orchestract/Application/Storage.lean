import Orchestract.Application.People

/-!
# Storage connections

The service of `app/application/storage_service.py` with the factory of
`app/infrastructure/storage/factory.py`, and the put and get of the storage adapters.
-/

namespace Orchestract

set_option autoImplicit false

/-- `config[key]` of a key that may be missing. -/
def lookupKey {α : Type} (value : Option α) : Query α := fun _ =>
  match value with
  | some a => .ok a
  | none => .error (.crashed .keyError)

/-- Where the adapter of a connection puts and gets its objects. -/
def buildFileStorage (env : Env) (c : StorageConnection) (secrets : StorageSecrets) :
    Query Bucket := do
  match c.provider with
  | .local => return .disk (env.settings.localStorageRoot ++ "/" ++ c.config.keyPrefix.getD "")
  | .s3 =>
    let bucket ← lookupKey c.config.bucket
    let _ ← lookupKey secrets.accessKey
    let _ ← lookupKey secrets.secretKey
    return .s3Compatible bucket none
  | .minio =>
    let bucket ← lookupKey c.config.bucket
    let _ ← lookupKey secrets.accessKey
    let _ ← lookupKey secrets.secretKey
    let endpointUrl ← lookupKey c.config.endpointUrl
    return .s3Compatible bucket (some endpointUrl)
  | .gcs =>
    let bucket ← lookupKey c.config.bucket
    let _ ← lookupKey secrets.serviceAccountInfo
    return .gcs bucket
  | .googleDrive | .onedrive => throw (.crashed .valueError)

/-- `adapter.upload`. -/
def putObject (env : Env) (bucket : Bucket) (key : String) (content : Bytes) : Action Unit := fun w =>
  if env.putFails bucket key then (.error (.crashed .externalError), w)
  else
    (.ok (), { w with files := fun b k => if b = bucket ∧ k = key then some content else w.files b k })

theorem putObject_db (env : Env) (bucket : Bucket) (key : String) (content : Bytes) (w : World) :
    (putObject env bucket key content w).2.db = w.db := by
  unfold putObject
  split
  · rfl
  · rfl

/-- `adapter.download`. -/
def getObject (bucket : Bucket) (key : String) : Query Bytes := fun w =>
  match w.files bucket key with
  | some content => .ok content
  | none => .error (.crashed .externalError)

/-- The answer of a call to another service. -/
def answered {α : Type} (answer : Option α) : Query α := fun _ =>
  match answer with
  | some a => .ok a
  | none => .error (.crashed .externalError)

namespace StorageService

def get (connectionId : Nat) : Query StorageConnection := require "storage connection" connectionId

def listConnections (organizationId : Nat) : Query (List StorageConnection) := do
  let rows ← select (fun c : StorageConnection => c.organizationId = organizationId)
  return rows.insertionSort (fun a b => a.createdAt ≤ b.createdAt)

def getByOrgAndProvider (organizationId : Nat) (provider : StorageProvider) :
    Query (Option StorageConnection) :=
  oneOrNone (fun c : StorageConnection => c.organizationId = organizationId && c.provider = provider)

def getPrimaryForOrganization (organizationId : Nat) : Query (Option StorageConnection) :=
  oneOrNone (fun c : StorageConnection => c.organizationId = organizationId && c.isPrimary)

/-- Takes the flag from the current primary; the promoted connection is saved by the caller. -/
def promote (connection : StorageConnection) : UnitOfWork StorageConnection := do
  match ← getPrimaryForOrganization connection.organizationId with
  | some current => if current.id ≠ connection.id then save current.unmarkPrimary
  | none => pure ()
  connection.markPrimary

def connectBucket (env : Env) (organizationId : Nat) (provider : StorageProvider)
    (displayName : String) (config : StorageConfig) (credentials : StorageSecrets) :
    UnitOfWork StorageConnection := do
  let existing ← getByOrgAndProvider organizationId provider
  raiseIf existing.isSome (DomainError.duplicateProviderConnection provider.value)
  let connection := StorageConnection.create organizationId provider displayName config env.now
  let connection ← promote (connection.setCredential credentials).markConnected
  add connection

def setPrimary (connectionId : Nat) : UnitOfWork StorageConnection := do
  let connection ← get connectionId
  let connection ← promote connection
  save connection
  return connection

def disconnect (connectionId : Nat) : UnitOfWork StorageConnection :=
  change "storage connection" connectionId fun connection => .ok connection.disconnect

def startOauthConnection (env : Env) (organizationId : Nat) (provider : StorageProvider) :
    Query String := do
  if provider.isReadOnly then
    let value := provider.value
    return env.authorizationUrl provider s!"{organizationId}:{value}"
  else throw (.crashed .valueError)

/-- `_tokens_to_secrets`. -/
def tokensToSecrets (tokens : OAuthTokens) : StorageSecrets :=
  { StorageSecrets.empty with
    accessToken := some tokens.accessToken
    refreshToken := tokens.refreshToken
    expiresAt := tokens.expiresAt }

/-- `provider.value.replace("_", " ").title()` of the two drives. -/
def driveTitle : StorageProvider → String
  | .googleDrive => "Google Drive"
  | .onedrive => "Onedrive"
  | provider => provider.value

/-- The organization and the provider are the halves of `state`; `tokens` is the answer to the
exchange of the code. -/
def completeOauthConnection (env : Env) (organizationId : Nat) (provider : StorageProvider)
    (tokens : Option OAuthTokens) : UnitOfWork StorageConnection := do
  let _ ← (if provider.isReadOnly then pure () else throw (.crashed .valueError) : Query Unit)
  let tokens ← (answered tokens : Query OAuthTokens)
  let existing ← getByOrgAndProvider organizationId provider
  let connection ← match existing with
    | some connection => pure connection
    | none => add (StorageConnection.create organizationId provider (driveTitle provider) .empty env.now)
  let connection := (connection.setCredential (tokensToSecrets tokens)).markConnected
  save connection
  return connection

/-- `_secrets_to_tokens(connection.credential.secrets)` and `build_file_connector`. -/
def tokensOf (connection : StorageConnection) : Query OAuthTokens := do
  match connection.credential with
  | none => throw (.crashed .attributeError)
  | some secrets =>
    let accessToken ← lookupKey secrets.accessToken
    if connection.provider.isReadOnly then
      return ⟨accessToken, secrets.refreshToken, secrets.expiresAt⟩
    else throw (.crashed .valueError)

def browseExternalFiles (env : Env) (connectionId : Nat) (folderId : Option String) :
    Query (List ExternalFile) := do
  let connection ← get connectionId
  let tokens ← tokensOf connection
  answered (env.listFiles connection.provider tokens folderId)

/-- Content, filename and content type. -/
def importExternalFile (env : Env) (connectionId : Nat) (externalFileId : String) :
    Query (Bytes × String × String) := do
  let connection ← get connectionId
  let tokens ← tokensOf connection
  answered (env.downloadFile connection.provider tokens externalFileId)

end StorageService

end Orchestract
