import Orchestract.Application.Operations

/-!
# What an upload does

An upload ends in one of three ways: with an error before its bytes are stored, with an error after
they are stored, or with a new version of its document. An import does nothing, or what an upload of
the file that it fetched does.
-/

namespace Orchestract

set_option autoImplicit false

/-- The stored files after a put. -/
def putFile (files : Bucket → String → Option Bytes) (bucket : Bucket) (key : String) (content : Bytes) :
    Bucket → String → Option Bytes :=
  fun b k => if b = bucket ∧ k = key then some content else files b k

theorem putFile_self (files : Bucket → String → Option Bytes) (bucket : Bucket) (key : String)
    (content : Bytes) : putFile files bucket key content bucket key = some content :=
  if_pos ⟨rfl, rfl⟩

/-- Elsewhere, and where the bytes are the same, a put changes nothing. -/
theorem putFile_same {files : Bucket → String → Option Bytes} {bucket b : Bucket} {key k : String}
    {content c : Bytes} (h : files b k = some c) (hsame : b = bucket → k = key → c = content) :
    putFile files bucket key content b k = some c := by
  unfold putFile
  by_cases hc : b = bucket ∧ k = key
  · rw [if_pos hc, hsame hc.1 hc.2]
  · rw [if_neg hc]
    exact h

namespace DocumentService

/-- The row of the version that an upload commits. -/
def newVersion (env : Env) (id : Nat) (document : Document) (connectionId : Nat) (key : String)
    (u : Upload) : DocumentVersion :=
  ⟨id, document.currentVersionNo + 1, connectionId, key, u.filename, u.contentType, u.content.length,
    u.sourceProvider, u.sourceExternalId, u.uploadedBy, u.notes, env.now⟩

/-- What an upload reads before it stores its bytes. -/
structure Target (env : Env) (documentId : Nat) (w : World) where
  document : Document
  contract : Contract
  connection : StorageConnection
  bucket : Bucket
  document_get : w.db.documents.get documentId = some document
  contract_get : w.db.contracts.get document.contractId = some contract
  connection_mem : connection ∈ w.db.connections.rows
  connection_primary : connection.isPrimary = true
  build : buildFileStorage env connection (connection.credential.getD .empty) w = .ok bucket

/-- The stored files once the upload has put its bytes. -/
def Target.files {env : Env} {documentId : Nat} {w : World} (t : Target env documentId w) (u : Upload) :
    Bucket → String → Option Bytes :=
  putFile w.files t.bucket (storageKey t.contract t.document u.filename) u.content

/-- The version that the upload commits. -/
def Target.version {env : Env} {documentId : Nat} {w : World} (t : Target env documentId w) (u : Upload) :
    DocumentVersion :=
  newVersion env w.db.nextVersionId t.document t.connection.id
    (storageKey t.contract t.document u.filename) u

/-- Everything up to the put. -/
def putUpload (env : Env) (documentId : Nat) (u : Upload)
    (finish : Document → StorageConnection → String → Action DocumentVersion) :
    Action DocumentVersion := do
  let (document, contract, connection) ← uploadTarget documentId
  let key := storageKey contract document u.filename
  let bucket ← buildFileStorage env connection (connection.credential.getD .empty)
  putObject env bucket key u.content
  finish document connection key

theorem uploadTarget_ok_iff {documentId : Nat} {w : World} {document : Document} {contract : Contract}
    {connection : StorageConnection} (h : uploadTarget documentId w = .ok (document, contract, connection)) :
    w.db.documents.get documentId = some document ∧
      w.db.contracts.get document.contractId = some contract ∧
      connection ∈ w.db.connections.rows ∧ connection.isPrimary = true ∧
      connection.organizationId = contract.organizationId := by
  simp only [uploadTarget, get, ContractService.get, Read.bind_ok_iff, require_ok_iff,
    lift_query_ok_iff] at h
  obtain ⟨d, hd, k, hk, primary, hprimary, c, hc, hreturn⟩ := h
  obtain ⟨rfl, rfl, rfl⟩ : d = document ∧ k = contract ∧ c = connection := by
    simpa using Except.ok.inj hreturn
  have hsome : primary = some c := by
    cases primary with
    | none => simp [orRaise] at hc
    | some p => simpa [orRaise] using hc
  rw [hsome] at hprimary
  obtain ⟨hmem, hp⟩ := oneOrNone_eq_some hprimary
  obtain ⟨horg, hflag⟩ := Bool.and_eq_true_iff.mp hp
  exact ⟨hd, hk, hmem, hflag, of_decide_eq_true horg⟩

/-- The bytes are stored by a connection of the contract's organization, or nothing has happened. -/
theorem putUpload_cases (env : Env) (documentId : Nat) (u : Upload)
    (finish : Document → StorageConnection → String → Action DocumentVersion) (w : World) :
    (∃ e, putUpload env documentId u finish w = (.error e, w)) ∨
      ∃ t : Target env documentId w, t.connection.organizationId = t.contract.organizationId ∧
        putUpload env documentId u finish w =
          finish t.document t.connection (storageKey t.contract t.document u.filename)
            { w with files := t.files u } := by
  unfold putUpload
  rw [Program.bind_apply, Program.read_apply]
  cases htarget : uploadTarget documentId w with
  | error e => exact Or.inl ⟨e, rfl⟩
  | ok target =>
    obtain ⟨document, contract, connection⟩ := target
    obtain ⟨hd, hk, hmem, hprimary, horg⟩ := uploadTarget_ok_iff htarget
    simp only
    rw [Program.bind_apply, Program.read_apply]
    cases hbuild : buildFileStorage env connection (connection.credential.getD .empty) w with
    | error e => exact Or.inl ⟨e, rfl⟩
    | ok bucket =>
      simp only
      rw [Program.bind_apply]
      unfold putObject
      by_cases hfails : env.putFails bucket (storageKey contract document u.filename) = true
      · rw [if_pos hfails]
        exact Or.inl ⟨_, rfl⟩
      · rw [if_neg hfails]
        exact Or.inr ⟨⟨document, contract, connection, bucket, hd, hk, hmem, hprimary, hbuild⟩, horg, rfl⟩

theorem commitVersion_apply (env : Env) (document : Document) (connectionId : Nat) (key : String)
    (u : Upload) (w : World) :
    commitVersion env document connectionId key u w =
      (save (document.addVersion (newVersion env w.db.nextVersionId document connectionId key u) env.now)
        >>= fun _ => do
          modifyThe World fun w' => { w' with db := { w'.db with nextVersionId := w.db.nextVersionId + 1 } }
          return newVersion env w.db.nextVersionId document connectionId key u :
        UnitOfWork DocumentVersion) w := rfl

/-- A commit stores the version with its document. -/
theorem commitVersion_cases (env : Env) (document : Document) (connectionId : Nat) (key : String)
    (u : Upload) (w : World) :
    let version := newVersion env w.db.nextVersionId document connectionId key u
    (∃ e, commitVersion env document connectionId key u w = .error e) ∨
      ∃ t, w.db.documents.update (document.addVersion version env.now) = some t ∧
        commitVersion env document connectionId key u w = .ok (version,
          { w with db := { w.db with documents := t, nextVersionId := w.db.nextVersionId + 1 } }) := by
  intro version
  cases hsave : save (document.addVersion version env.now) w with
  | error e =>
    refine Or.inl ⟨e, ?_⟩
    rw [commitVersion_apply, Work.bind_apply, hsave]
  | ok p =>
    obtain ⟨_, t, ht, hw⟩ := (save_ok_iff _ w p.2).mp hsave
    refine Or.inr ⟨t, ht, ?_⟩
    rw [commitVersion_apply, Work.bind_apply, hsave]
    simp only [hw]
    rfl

/-- The three ends of an upload. -/
theorem upload_cases (env : Env) (documentId : Nat) (u : Upload) (commits : Bool) (w : World) :
    (∃ e, Operation.upload env documentId u commits w = (.error e, w)) ∨
      ∃ t : Target env documentId w, t.connection.organizationId = t.contract.organizationId ∧
        ((∃ e, Operation.upload env documentId u commits w = (.error e, { w with files := t.files u })) ∨
        ∃ documents, w.db.documents.update (t.document.addVersion (t.version u) env.now) = some documents ∧
          Operation.upload env documentId u commits w = (.ok (t.version u),
            ⟨{ w.db with documents := documents, nextVersionId := w.db.nextVersionId + 1 }, t.files u⟩)) := by
  unfold Operation.upload
  cases commits with
  | false =>
    have heq : uploadRolledBack env documentId u =
        putUpload env documentId u fun _ _ _ => throw (.crashed .integrityError) := rfl
    simp only [Bool.false_eq_true, if_false, heq]
    rcases putUpload_cases env documentId u (fun _ _ _ => throw (.crashed .integrityError)) w with
      hfails | ⟨t, horg, ht⟩
    · exact Or.inl hfails
    · exact Or.inr ⟨t, horg, Or.inl ⟨_, ht⟩⟩
  | true =>
    have heq : uploadVersion env documentId u = putUpload env documentId u fun document connection key =>
        liftM (commitVersion env document connection.id key u) := rfl
    simp only [if_true, heq]
    rcases putUpload_cases env documentId u (fun document connection key =>
      liftM (commitVersion env document connection.id key u)) w with hfails | ⟨t, horg, ht⟩
    · exact Or.inl hfails
    · refine Or.inr ⟨t, horg, ?_⟩
      rw [ht, Program.commit_apply]
      rcases commitVersion_cases env t.document t.connection.id
        (storageKey t.contract t.document u.filename) u { w with files := t.files u } with
        ⟨e, he⟩ | ⟨documents, hdocuments, hcommit⟩
      · rw [he]
        exact Or.inl ⟨e, rfl⟩
      · rw [hcommit]
        exact Or.inr ⟨documents, hdocuments, rfl⟩

end DocumentService

/-! ## Uploads as calls -/

variable {env : Env} {s : System} {connectionId : Nat} {externalFileId uploadedBy : String}
  {notes : Option String} {u : DocumentService.Upload} {e : Failure}

theorem onSystem_map (m : Action DocumentVersion) (s : System) :
    Action.onSystem ((fun _ => ()) <$> m) s =
      (match (m s.world).1 with
        | .ok _ => .ok ()
        | .error e => .error e, { s with world := (m s.world).2 }) := by
  unfold Action.onSystem
  rw [map_eq_pure_bind, Program.bind_apply]
  cases (m s.world).1 <;> rfl

theorem importVersion_error (documentId : Nat) (commits : Bool)
    (h : Operation.imported env connectionId externalFileId uploadedBy notes s.world = .error e) :
    (Operation.importVersion documentId connectionId externalFileId uploadedBy notes commits).run env s =
      (.error e, s) := by
  change Action.onSystem (liftM (Operation.imported env connectionId externalFileId uploadedBy notes) >>= _)
    s = _
  unfold Action.onSystem
  rw [Program.bind_apply, Program.read_apply, h]

/-- The file that an import fetched is uploaded. -/
theorem importVersion_ok (documentId : Nat) (commits : Bool)
    (h : Operation.imported env connectionId externalFileId uploadedBy notes s.world = .ok u) :
    (Operation.importVersion documentId connectionId externalFileId uploadedBy notes commits).run env s =
      Action.onSystem ((fun _ => ()) <$> Operation.upload env documentId u commits) s := by
  change Action.onSystem (liftM (Operation.imported env connectionId externalFileId uploadedBy notes) >>= _)
    s = _
  unfold Action.onSystem
  rw [Program.bind_apply, Program.read_apply, h, map_eq_pure_bind]

end Orchestract
