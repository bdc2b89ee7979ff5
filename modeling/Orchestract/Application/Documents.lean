import Orchestract.Application.Contracts
import Orchestract.Application.Storage

/-!
# Documents and share links

The services of `app/application/document_service.py` and `app/application/sharing_service.py`.
The bytes of an upload are put into the storage backend before its row is committed.
-/

namespace Orchestract

set_option autoImplicit false

/-- The class `[A-Za-z0-9_.-]`. -/
def isFilenameChar (c : Char) : Bool :=
  ('A' ≤ c && c ≤ 'Z') || ('a' ≤ c && c ≤ 'z') || ('0' ≤ c && c ≤ '9') || c = '_' || c = '.' || c = '-'

def safeFilename (name : String) : String :=
  let safe := Text.stripBy (· = '_') (name.toList.map (fun c => if isFilenameChar c then c else '_'))
  if safe = [] then "file" else String.ofList safe

namespace DocumentService

def get (documentId : Nat) : Query Document := require "document" documentId

def setSummary (env : Env) (documentId : Nat) (summary : String) : UnitOfWork Document :=
  change "document" documentId fun document => .ok (document.setSummary summary env.now)

def downloadVersion (env : Env) (version : DocumentVersion) : Query Bytes := do
  let connection ← StorageService.get version.storageConnectionId
  let bucket ← buildFileStorage env connection (connection.credential.getD .empty)
  getObject bucket version.storageKey

/-- What a request uploads, with the provenance of imported files. -/
structure Upload where
  content : Bytes
  filename : String
  contentType : String
  uploadedBy : String
  notes : Option String
  sourceProvider : Option StorageProvider
  sourceExternalId : Option String
deriving DecidableEq, Repr

def storageKey (contract : Contract) (document : Document) (filename : String) : String :=
  let nextVersionNo := document.currentVersionNo + 1
  let name := safeFilename filename
  s!"org-{contract.organizationId}/contract-{contract.id}/doc-{document.id}/v{nextVersionNo}-{name}"

/-- The document, its contract and the connection its bytes will go to. -/
def uploadTarget (documentId : Nat) : Query (Document × Contract × StorageConnection) := do
  let document ← get documentId
  let contract ← ContractService.get document.contractId
  let primary ← StorageService.getPrimaryForOrganization contract.organizationId
  let connection ←
    orRaise (DomainError.noPrimaryStorageConnection contract.organizationId) primary
  return (document, contract, connection)

/-- `add_version` and the commit; the version's id comes from its table's sequence. -/
def commitVersion (env : Env) (document : Document) (connectionId : Nat) (key : String)
    (upload : Upload) : UnitOfWork DocumentVersion := do
  let id := (← getThe World).db.nextVersionId
  let version : DocumentVersion := ⟨id, document.currentVersionNo + 1, connectionId, key,
    upload.filename, upload.contentType, upload.content.length, upload.sourceProvider,
    upload.sourceExternalId, upload.uploadedBy, upload.notes, env.now⟩
  save (document.addVersion version env.now)
  modifyThe World fun w => { w with db := { w.db with nextVersionId := id + 1 } }
  return version

def uploadVersion (env : Env) (documentId : Nat) (upload : Upload) : Action DocumentVersion := do
  let (document, contract, connection) ← uploadTarget documentId
  let key := storageKey contract document upload.filename
  let bucket ← buildFileStorage env connection (connection.credential.getD .empty)
  putObject env bucket key upload.content
  commitVersion env document connection.id key upload

/-- An upload whose commit fails: its bytes are in the backend, and the row is rolled back. -/
def uploadRolledBack (env : Env) (documentId : Nat) (upload : Upload) : Action DocumentVersion := do
  let (document, contract, connection) ← uploadTarget documentId
  let key := storageKey contract document upload.filename
  let bucket ← buildFileStorage env connection (connection.credential.getD .empty)
  putObject env bucket key upload.content
  throw (.crashed .integrityError)

theorem uploadTarget_ok {documentId : Nat} {w : World}
    {target : Document × Contract × StorageConnection} (h : uploadTarget documentId w = .ok target) :
    w.db.documents.get documentId = some target.1 := by
  simp only [uploadTarget, get, Read.bind_ok_iff, require_ok_iff] at h
  obtain ⟨document, hdocument, _, _, _, _, _, _, hreturn⟩ := h
  obtain rfl := Except.ok.inj hreturn
  exact hdocument

theorem commitVersion_ok {env : Env} {document : Document} {connectionId : Nat} {key : String}
    {upload : Upload} {version : DocumentVersion} {w w' : World}
    (h : commitVersion env document connectionId key upload w = .ok (version, w')) :
    ∃ w₁ n, save (document.addVersion version env.now) w = .ok ((), w₁) ∧
      w' = { w₁ with db := { w₁.db with nextVersionId := n } } := by
  simp only [commitVersion, Work.bind_ok_iff] at h
  obtain ⟨_, _, hget, _, w₁, hsave, _, w₂, hmodify, hreturn⟩ := h
  obtain ⟨rfl, rfl⟩ := Prod.mk.inj (Except.ok.inj hget)
  obtain ⟨_, rfl⟩ := Prod.mk.inj (Except.ok.inj hmodify)
  obtain ⟨rfl, rfl⟩ := (Work.pure_ok_iff _ _ _ _).mp hreturn
  exact ⟨w₁, _, hsave, rfl⟩

/-- An upload commits a version of the document it names, or leaves the database as it was. -/
theorem uploadVersion_db (env : Env) (documentId : Nat) (upload : Upload) (w : World) :
    (uploadVersion env documentId upload w).2.db = w.db ∨
      ∃ document connectionId key w₁ version, w.db.documents.get documentId = some document ∧
        w₁.db = w.db ∧ commitVersion env document connectionId key upload w₁ =
          .ok (version, (uploadVersion env documentId upload w).2) := by
  unfold uploadVersion
  rcases Program.after_read (uploadTarget documentId) _ w with
    h | ⟨⟨document, contract, connection⟩, htarget, h⟩
  · exact Or.inl (congrArg World.db h)
  rw [h]
  let key := storageKey contract document upload.filename
  rcases Program.after_read (buildFileStorage env connection (connection.credential.getD .empty)) _ w with
    h' | ⟨bucket, _, h'⟩
  · exact Or.inl (congrArg World.db h')
  rw [h', Program.bind_apply]
  have hput : (putObject env bucket key upload.content w).2.db = w.db := putObject_db env bucket key _ w
  generalize putObject env bucket key upload.content w = put at hput
  rcases ok_or_error put.1 with ⟨u, hu⟩ | ⟨e, he⟩
  · rw [hu]
    rcases Program.work_state (commitVersion env document connection.id key upload) put.2 with
      ⟨version, hcommit⟩ | heq
    · exact Or.inr ⟨document, _, _, put.2, version, uploadTarget_ok htarget, hput, hcommit⟩
    · exact Or.inl ((congrArg World.db heq).trans hput)
  · rw [he]
    exact Or.inl hput

def importVersionFromExternal (env : Env) (documentId connectionId : Nat) (externalFileId : String)
    (uploadedBy : String) (notes : Option String) : Action DocumentVersion := do
  let connection ← StorageService.get connectionId
  let (content, filename, contentType) ←
    StorageService.importExternalFile env connectionId externalFileId
  uploadVersion env documentId
    ⟨content, filename, contentType, uploadedBy, notes, some connection.provider, some externalFileId⟩

end DocumentService

namespace SharingService

def createLink (env : Env) (contractId : Nat) (scope : ShareScope) (allowDownload : Bool)
    (expiresInHours : Nat) (createdBy : String) (documentIds : List Nat)
    (rawPassword : Option String) : UnitOfWork ShareLink := do
  let contract ← ContractService.get contractId
  let documents ← ContractService.documentsOf contract.id
  let validIds := documents.map (fun d => d.id)
  let ids := if scope = .documents then documentIds.filter (fun id => id ∈ validIds) else []
  let link ← ShareLink.issue contractId scope allowDownload (expiresInHours * 3600) createdBy ids
    ((rawPassword.bind Text.orNone).map env.hashPassword) env.randomToken env.now
  add link

def listForContract (contractId : Nat) : Query (List ShareLink) := do
  let rows ← select (fun l : ShareLink => l.contractId = contractId)
  return orderByDesc ShareLink.createdAt rows

def revoke (env : Env) (contractId linkId : Nat) : UnitOfWork Unit := do
  let found ← (find linkId : Query (Option ShareLink))
  let link ← orRaise (DomainError.notFound s!"share link {linkId} not found")
    (found.filter (fun l => l.contractId = contractId))
  save (link.revoke env.now)

end SharingService

end Orchestract
