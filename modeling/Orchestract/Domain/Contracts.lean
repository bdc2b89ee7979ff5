import Orchestract.Domain.Storage

/-!
# Contracts, documents and share links

The aggregates of `app/domain/contracts/models.py`, `app/domain/documents/models.py` and
`app/domain/sharing/models.py`. `Contract.documents` is the list of the documents whose
`contractId` is the contract's; the versions of a document and the documents of a share link
are kept in their row.
-/

namespace Orchestract

set_option autoImplicit false

/-- The keys `ai_config` may have; a missing key reads as `None`. -/
structure AIConfig where
  enabled : Option Bool
  model : Option String
  instructions : Option String
  allowedTools : Option (List String)
deriving DecidableEq, Repr

def AIConfig.empty : AIConfig := ⟨none, none, none, none⟩

structure Contract where
  id : Nat
  organizationId : Nat
  title : String
  description : Option String
  contractType : String
  summary : Option String
  summaryGeneratedAt : Option Nat
  aiConfig : AIConfig
  createdAt : Nat
  updatedAt : Nat
deriving DecidableEq, Repr

instance : Row Contract where
  id := Contract.id
  withId n c := { c with id := n }
  keys _ := []
  id_withId _ _ := rfl

structure DocumentVersion where
  id : Nat
  versionNo : Nat
  storageConnectionId : Nat
  storageKey : String
  originalFilename : String
  contentType : String
  sizeBytes : Nat
  sourceProvider : Option StorageProvider
  sourceExternalId : Option String
  uploadedBy : String
  notes : Option String
  createdAt : Nat
deriving DecidableEq, Repr

structure Document where
  id : Nat
  contractId : Nat
  name : String
  currentVersionNo : Nat
  summary : Option String
  summaryGeneratedAt : Option Nat
  createdAt : Nat
  updatedAt : Nat
  versions : List DocumentVersion
deriving DecidableEq, Repr

instance : Row Document where
  id := Document.id
  withId n d := { d with id := n }
  keys _ := []
  id_withId _ _ := rfl

namespace Document

def create (contractId : Nat) (name : String) (now : Nat) : Except DomainError Document := do
  let name := Text.strip name
  raiseIf (name = "") .emptyDocumentName
  return ⟨0, contractId, name, 0, none, none, now, now, []⟩

/-- The version comes with its id and the other columns; its number is the next one. -/
def addVersion (d : Document) (version : DocumentVersion) (now : Nat) : Document :=
  { d with
    currentVersionNo := d.currentVersionNo + 1
    versions := d.versions ++ [{ version with versionNo := d.currentVersionNo + 1 }]
    updatedAt := now }

def latestVersion (d : Document) : Option DocumentVersion := d.versions.getLast?

def setSummary (d : Document) (summary : String) (now : Nat) : Document :=
  { d with summary := some summary, summaryGeneratedAt := some now }

end Document

namespace Contract

def create (organizationId : Nat) (title contractType : String) (description : Option String)
    (now : Nat) : Except DomainError Contract := do
  let title := Text.strip title
  raiseIf (title = "") .emptyContractTitle
  return ⟨0, organizationId, title, description, contractType, none, none, .empty, now, now⟩

/-- The contract touched, and the document to be stored with it. -/
def addDocument (c : Contract) (name : String) (now : Nat) :
    Except DomainError (Contract × Document) := do
  let document ← Document.create c.id name now
  return ({ c with updatedAt := now }, document)

def setSummary (c : Contract) (summary : String) (now : Nat) : Contract :=
  { c with summary := some summary, summaryGeneratedAt := some now }

def setAIConfig (c : Contract) (config : AIConfig) (now : Nat) : Contract :=
  { c with aiConfig := config, updatedAt := now }

end Contract

inductive ShareScope where
  | contract
  | documents
deriving DecidableEq, Repr

structure ShareLink where
  id : Nat
  contractId : Nat
  token : String
  scope : ShareScope
  passwordHash : Option String
  allowDownload : Bool
  createdBy : String
  createdAt : Nat
  expiresAt : Nat
  revokedAt : Option Nat
  lastAccessedAt : Option Nat
  documents : List Nat
deriving DecidableEq, Repr

instance : Row ShareLink where
  id := ShareLink.id
  withId n l := { l with id := n }
  keys l := [⟨"share_links_token", 0, l.token⟩]
  id_withId _ _ := rfl

namespace ShareLink

/-- `list(dict.fromkeys(ids))`: the first occurrence of each id. -/
def distinct (ids : List Nat) : List Nat :=
  ids.foldl (fun seen id => if id ∈ seen then seen else seen ++ [id]) []

/-- `ttl` is in the unit of `now`. -/
def issue (contractId : Nat) (scope : ShareScope) (allowDownload : Bool) (ttl : Nat)
    (createdBy : String) (documentIds : List Nat) (passwordHash : Option String) (token : String)
    (now : Nat) : Except DomainError ShareLink := do
  let ids := distinct documentIds
  raiseIf (scope = .documents ∧ ids = []) .noSharedDocuments
  return ⟨0, contractId, token, scope, passwordHash, allowDownload, createdBy, now, now + ttl, none,
    none, if scope = .documents then ids else []⟩

def isActive (l : ShareLink) (now : Nat) : Bool := l.revokedAt.isNone && now < l.expiresAt

def revoke (l : ShareLink) (now : Nat) : ShareLink :=
  if l.revokedAt = none then { l with revokedAt := some now } else l

end ShareLink

end Orchestract
