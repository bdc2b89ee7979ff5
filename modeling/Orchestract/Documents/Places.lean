import Orchestract.Storage.Working

/-!
# Where an upload goes

What an upload reads decides where its bytes are to go, and the backend whether they get there. If
they do, the version is committed.
-/

namespace Orchestract

set_option autoImplicit false

open StorageService (getPrimaryForOrganization)

namespace DocumentService

/-- What an upload reads before it stores its bytes, and the bucket for them. -/
def uploadPlace (env : Env) (documentId : Nat) :
    Query (Document × Contract × StorageConnection × Bucket) := do
  let (document, contract, connection) ← uploadTarget documentId
  let bucket ← buildFileStorage env connection (connection.credential.getD .empty)
  return (document, contract, connection, bucket)

/-- The backend takes the bytes. -/
def taken (env : Env) (documentId : Nat) (filename : String) (w : World) : Bool :=
  match uploadPlace env documentId w with
  | .ok (document, contract, _, bucket) => !env.putFails bucket (storageKey contract document filename)
  | .error _ => false

variable {w : World} {env : Env} {documentId : Nat} {document : Document} {contract : Contract}
  {connection : StorageConnection} {bucket : Bucket}

theorem uploadTarget_iff : uploadTarget documentId w = .ok (document, contract, connection) ↔
    w.db.documents.get documentId = some document ∧ w.db.contracts.get document.contractId = some contract ∧
      getPrimaryForOrganization contract.organizationId w = .ok (some connection) := by
  constructor
  · intro h
    simp only [uploadTarget, get, ContractService.get, Read.bind_ok_iff, require_ok_iff, lift_query_ok_iff,
      orRaise_ok_iff] at h
    obtain ⟨d, hd, k, hk, _, hprimary, c, rfl, hreturn⟩ := h
    obtain ⟨rfl, rfl, rfl⟩ : d = document ∧ k = contract ∧ c = connection := by
      simpa using Except.ok.inj hreturn
    exact ⟨hd, hk, hprimary⟩
  · rintro ⟨hd, hk, hprimary⟩
    exact uploadTarget_of_primary hd hk hprimary

theorem uploadPlace_iff : uploadPlace env documentId w = .ok (document, contract, connection, bucket) ↔
    uploadTarget documentId w = .ok (document, contract, connection) ∧
      buildFileStorage env connection (connection.credential.getD .empty) w = .ok bucket := by
  simp only [uploadPlace, Read.bind_ok_iff]
  constructor
  · rintro ⟨⟨d, k, c⟩, htarget, b, hbuild, hreturn⟩
    obtain ⟨rfl, rfl, rfl, rfl⟩ : d = document ∧ k = contract ∧ c = connection ∧ b = bucket := by
      simpa using Except.ok.inj hreturn
    exact ⟨htarget, hbuild⟩
  · rintro ⟨htarget, hbuild⟩
    exact ⟨_, htarget, bucket, hbuild, rfl⟩

theorem putUpload_apply (env : Env) (documentId : Nat) (u : Upload)
    (finish : Document → StorageConnection → String → Action DocumentVersion) (w : World) :
    putUpload env documentId u finish w =
      match uploadPlace env documentId w with
      | .ok (document, contract, connection, bucket) =>
        let key := storageKey contract document u.filename
        if env.putFails bucket key then (.error (.crashed .externalError), w)
        else finish document connection key { w with files := putFile w.files bucket key u.content }
      | .error e => (.error e, w) := by
  unfold putUpload uploadPlace
  rw [Program.bind_apply, Program.read_apply]
  cases htarget : uploadTarget documentId w with
  | error e =>
    rw [(Read.bind_error_iff _ _ _ e).mpr (Or.inl htarget)]
  | ok target =>
    obtain ⟨document, contract, connection⟩ := target
    simp only
    rw [Read.bind_ok htarget, Program.bind_apply, Program.read_apply]
    cases hbuild : buildFileStorage env connection (connection.credential.getD .empty) w with
    | error e => rw [(Read.bind_error_iff _ _ _ e).mpr (Or.inl hbuild)]
    | ok bucket =>
      rw [Read.bind_ok hbuild]
      simp only
      rw [Program.bind_apply]
      unfold putObject
      by_cases hfails : env.putFails bucket (storageKey contract document u.filename) = true
      · simp [hfails]
      · simp only [if_neg hfails, Read.pure_apply]
        rfl

/-- An upload that is not taken changes nothing. -/
theorem upload_refused {u : Upload} {commits : Bool} (h : taken env documentId u.filename w = false) :
    (Operation.upload env documentId u commits w).2 = w := by
  have hput : ∀ finish, (putUpload env documentId u finish w).2 = w := by
    intro finish
    rw [putUpload_apply]
    unfold taken at h
    rcases hplace : uploadPlace env documentId w with e | ⟨document, contract, connection, bucket⟩
    · rfl
    · have hfails : env.putFails bucket (storageKey contract document u.filename) = true := by
        simpa [hplace] using h
      simp [hfails]
  cases commits with
  | false => exact hput fun _ _ _ => throw (.crashed .integrityError)
  | true => exact hput fun document connection key => liftM (commitVersion env document connection.id key u)

/-- What the world is after an upload that is taken. -/
theorem upload_taken {u : Upload} (commits : Bool) (h : taken env documentId u.filename w = true)
    (hrefs : ∀ d ∈ w.db.documents.rows, refsExist d w.db = true) :
    ∃ document contract connection bucket,
      uploadPlace env documentId w = .ok (document, contract, connection, bucket) ∧
      let key := storageKey contract document u.filename
      let files := putFile w.files bucket key u.content
      (commits = false → (Operation.upload env documentId u commits w).2 = { w with files := files }) ∧
      (commits = true → ∃ t, w.db.documents.update
          (document.addVersion (newVersion env w.db.nextVersionId document connection.id key u) env.now) = some t ∧
        (Operation.upload env documentId u commits w).2 =
          ⟨{ w.db with documents := t, nextVersionId := w.db.nextVersionId + 1 }, files⟩) := by
  unfold taken at h
  cases hplace : uploadPlace env documentId w with
  | error e => simp [hplace] at h
  | ok place =>
    obtain ⟨document, contract, connection, bucket⟩ := place
    have hputs : env.putFails bucket (storageKey contract document u.filename) = false := by
      simpa [hplace] using h
    have hput : ∀ finish, putUpload env documentId u finish w = finish document connection
        (storageKey contract document u.filename)
        { w with files := putFile w.files bucket (storageKey contract document u.filename) u.content } := by
      intro finish
      rw [putUpload_apply, hplace]
      simp [hputs]
    refine ⟨document, contract, connection, bucket, rfl, fun hcommits => ?_, fun hcommits => ?_⟩
    · subst hcommits
      change (putUpload env documentId u (fun _ _ _ => throw (.crashed .integrityError)) w).2 = _
      rw [hput]
      rfl
    · subst hcommits
      obtain ⟨hd, _, hprimary⟩ := uploadTarget_iff.mp (uploadPlace_iff.mp hplace).1
      have hmem : document ∈ w.db.documents.rows := (Table.get_eq_some_iff.mp hd).1
      let key := storageKey contract document u.filename
      let w₁ : World := { w with files := putFile w.files bucket key u.content }
      obtain ⟨v, w', hcommit⟩ := commitVersion_succeeds env key u (w := w₁) hmem
        (hrefs document hmem) (oneOrNone_eq_some hprimary).1
      change ∃ t, _ ∧ (putUpload env documentId u (fun document connection key =>
        liftM (commitVersion env document connection.id key u)) w).2 = _
      rw [hput, Program.commit_apply]
      rcases commitVersion_cases env document connection.id key u w₁ with ⟨e, he⟩ | ⟨t, ht, hok⟩
      · rw [he] at hcommit
        cases hcommit
      · refine ⟨t, ht, ?_⟩
        rw [show commitVersion env document connection.id key u w₁ = _ from hok]

end DocumentService

end Orchestract
