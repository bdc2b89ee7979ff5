import Orchestract.Domain.Tenancy

/-!
# Storage connections

The aggregate of `app/domain/storage/models.py`, the ports of `ports.py`, and where a connection
keeps its objects (`app/infrastructure/storage/factory.py`).
-/

namespace Orchestract

set_option autoImplicit false

inductive StorageProvider where
  | s3
  | gcs
  | minio
  | googleDrive
  | onedrive
  | local
deriving DecidableEq, Repr

namespace StorageProvider

def value : StorageProvider → String
  | .s3 => "s3"
  | .gcs => "gcs"
  | .minio => "minio"
  | .googleDrive => "google_drive"
  | .onedrive => "onedrive"
  | .local => "local"

/-- `StorageProvider(value)`. -/
def ofValue (value : String) : Option StorageProvider :=
  [s3, gcs, minio, googleDrive, onedrive, «local»].find? (fun p => p.value = value)

/-- `READ_ONLY_PROVIDERS`, which are also the `OAUTH_PROVIDERS`. -/
def isReadOnly (p : StorageProvider) : Bool := p = .googleDrive || p = .onedrive

end StorageProvider

inductive ConnectionStatus where
  | pending
  | connected
  | error
  | disconnected
deriving DecidableEq, Repr

/-- The keys `config` may have. -/
structure StorageConfig where
  keyPrefix : Option String
  bucket : Option String
  region : Option String
  endpointUrl : Option String
deriving DecidableEq, Repr

/-- The keys `secrets` may have. -/
structure StorageSecrets where
  accessKey : Option String
  secretKey : Option String
  serviceAccountInfo : Option String
  accessToken : Option String
  refreshToken : Option String
  expiresAt : Option Nat
deriving DecidableEq, Repr

def StorageConfig.empty : StorageConfig := ⟨none, none, none, none⟩

def StorageSecrets.empty : StorageSecrets := ⟨none, none, none, none, none, none⟩

structure StorageConnection where
  id : Nat
  organizationId : Nat
  provider : StorageProvider
  status : ConnectionStatus
  isPrimary : Bool
  displayName : String
  config : StorageConfig
  createdAt : Nat
  credential : Option StorageSecrets
deriving DecidableEq, Repr

instance : Row StorageConnection where
  id := StorageConnection.id
  withId n c := { c with id := n }
  keys c := [⟨"uq_conn_org_provider", c.organizationId, c.provider.value⟩]
  id_withId _ _ := rfl

namespace StorageConnection

def isWriteCapable (c : StorageConnection) : Bool := !c.provider.isReadOnly

def create (organizationId : Nat) (provider : StorageProvider) (displayName : String)
    (config : StorageConfig) (now : Nat) : StorageConnection :=
  ⟨0, organizationId, provider, .pending, false, displayName, config, now, none⟩

def setCredential (c : StorageConnection) (secrets : StorageSecrets) : StorageConnection :=
  { c with credential := some secrets }

def markConnected (c : StorageConnection) : StorageConnection := { c with status := .connected }

def disconnect (c : StorageConnection) : StorageConnection :=
  { c with status := .disconnected, isPrimary := false }

def markPrimary (c : StorageConnection) : Except DomainError StorageConnection := do
  raiseIf (¬ c.isWriteCapable) (.readOnlyProviderCannotBePrimary c.provider.value)
  return { c with isPrimary := true }

def unmarkPrimary (c : StorageConnection) : StorageConnection := { c with isPrimary := false }

end StorageConnection

/-- The space of keys a backend writes into: two connections with one bucket share it. -/
inductive Bucket where
  | disk (root : String)
  | s3Compatible (bucket : String) (endpointUrl : Option String)
  | gcs (bucket : String)
deriving DecidableEq, Repr

structure OAuthTokens where
  accessToken : String
  refreshToken : Option String
  expiresAt : Option Nat
deriving DecidableEq, Repr

structure ExternalFile where
  id : String
  name : String
  mimeType : String
  size : Option Nat
  modifiedAt : Option Nat
deriving DecidableEq, Repr

end Orchestract
