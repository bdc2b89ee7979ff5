import Orchestract.Documents.Uploads
import Orchestract.Storage.Primary

/-!
# What works with one primary connection

Uploads, `connect_bucket` and `set_primary` all ask for the primary connection of the organization.
As long as at most one connection has the flag, they get an answer.
-/

namespace Orchestract

set_option autoImplicit false

open StorageService (getPrimaryForOrganization)

/-- At most one connection of the organization has the flag. -/
def OnePrimary (organizationId : Nat) (t : Table StorageConnection) : Prop :=
  ∀ c ∈ t.rows, ∀ c' ∈ t.rows, c.organizationId = organizationId → c'.organizationId = organizationId →
    c.isPrimary = true → c'.isPrimary = true → c = c'

variable {w w' : World} {env : Env} {organizationId : Nat}

theorem StorageProvider.value_injective {p q : StorageProvider} (h : p.value = q.value) : p = q := by
  revert h
  cases p <;> cases q <;> decide

theorem refsExist_connection_iff {c : StorageConnection} {db : Database} :
    refsExist c db = true ↔ (db.organizations.get c.organizationId).isSome = true := by
  simp [refsExist, Stored.refs, Database.has]

theorem promote_succeeds {c : StorageConnection} (hone : OnePrimary c.organizationId w.db.connections)
    (horganization : (w.db.organizations.get c.organizationId).isSome = true) (hwrite : c.isWriteCapable = true) :
    ∃ w', StorageService.promote c w = .ok (c.promoted, w') := by
  have hmark : ∀ w : World, (liftM c.markPrimary : UnitOfWork StorageConnection) w = .ok (c.promoted, w) :=
    fun w => (lift_work_ok_iff _ _ _ _).mpr ⟨markPrimary_ok_iff.mpr ⟨hwrite, rfl⟩, rfl⟩
  obtain ⟨found, hfound, hmem⟩ := lookup_of_single hone
  simp only [StorageService.promote, Work.bind_ok_iff, Work.lift_ok_iff]
  cases found with
  | none => exact ⟨w, none, w, ⟨hfound, rfl⟩, hmark w⟩
  | some current =>
    by_cases hid : current.id ≠ c.id
    · obtain ⟨hcurrent, horg, _⟩ := (hmem current).mp rfl
      have hrefs : refsExist current.unmarkPrimary w.db = true :=
        refsExist_connection_iff.mpr (horg ▸ horganization)
      obtain ⟨w', hsave⟩ := save_same_keys (a := current.unmarkPrimary) hcurrent rfl rfl hrefs
      refine ⟨w', some current, w, ⟨hfound, rfl⟩, ?_⟩
      simp only [if_pos hid, Work.bind_ok_iff]
      exact ⟨_, _, hsave, hmark w'⟩
    · refine ⟨w, some current, w, ⟨hfound, rfl⟩, ?_⟩
      simp only [if_neg hid]
      exact hmark w

theorem setPrimary_succeeds {c : StorageConnection} (hone : OnePrimary c.organizationId w.db.connections)
    (horganization : (w.db.organizations.get c.organizationId).isSome = true)
    (hc : c ∈ w.db.connections.rows) (hwrite : c.isWriteCapable = true) :
    ∃ a w', StorageService.setPrimary c.id w = .ok (a, w') := by
  obtain ⟨w₁, hpromote⟩ := promote_succeeds hone horganization hwrite
  obtain ⟨_, _, t, hdemoted, rfl⟩ := promote_demoted hpromote
  have hrefs : refsExist c.promoted w.db = true := refsExist_connection_iff.mpr horganization
  obtain ⟨w', hsave⟩ := save_same_keys (w := { w with db := { w.db with connections := t } })
    (a := c.promoted) (demoted_mem hdemoted hc) rfl rfl hrefs
  refine ⟨c.promoted, w', ?_⟩
  simp only [StorageService.setPrimary, StorageService.get, Work.bind_ok_iff, Work.lift_ok_iff,
    require_ok_iff, Work.pure_ok_iff]
  exact ⟨c, w, ⟨Table.get_eq_some_iff.mpr ⟨hc, rfl⟩, rfl⟩, _, _, hpromote, (), w', hsave, rfl, rfl⟩

/-- The rows that the flag is taken from stay rows of their organization and provider. -/
theorem demoted_old {t t₁ : Table StorageConnection} {c r : StorageConnection} (h : Demoted t c t₁)
    (hr : r ∈ t₁.rows) : ∃ r₀ ∈ t.rows, r.organizationId = r₀.organizationId ∧ r.provider = r₀.provider := by
  cases h with
  | none => exact ⟨r, hr, rfl, rfl⟩
  | one hp _ _ _ _ hupdate =>
    rcases Table.mem_update hupdate hr with rfl | ⟨hr, _⟩
    · exact ⟨_, hp, rfl, rfl⟩
    · exact ⟨r, hr, rfl, rfl⟩

theorem connectBucket_succeeds {provider : StorageProvider} (displayName : String) (config : StorageConfig)
    (credentials : StorageSecrets) (hone : OnePrimary organizationId w.db.connections)
    (horganization : (w.db.organizations.get organizationId).isSome = true)
    (hreadOnly : provider.isReadOnly = false)
    (hmissing : ∀ c ∈ w.db.connections.rows, c.organizationId = organizationId → c.provider ≠ provider) :
    ∃ a w', StorageService.connectBucket env organizationId provider displayName config credentials w =
      .ok (a, w') := by
  let c := bucketConnection env organizationId provider displayName config credentials
  have hwrite : c.isWriteCapable = true := by
    change (!provider.isReadOnly) = true
    rw [hreadOnly]
    rfl
  have hnone : StorageService.getByOrgAndProvider organizationId provider w = .ok none := by
    refine oneOrNone_of_nil (List.filter_eq_nil_iff.mpr fun r hr hp => ?_)
    simp only [Bool.and_eq_true, decide_eq_true_eq] at hp
    exact hmissing r hr hp.1 hp.2
  obtain ⟨w₁, hpromote⟩ := promote_succeeds (c := c) hone horganization hwrite
  obtain ⟨_, _, t, hdemoted, rfl⟩ := promote_demoted hpromote
  have hinsert : ∃ q, t.insert c.promoted = some q := by
    refine Table.insert_isSome_iff.mpr fun r hr k hk hk' => ?_
    obtain ⟨r₀, hr₀, horg, hprovider⟩ := demoted_old hdemoted hr
    have hkey : k = ⟨"uq_conn_org_provider", r.organizationId, r.provider.value⟩ := List.mem_singleton.mp hk
    have hkey' : k = ⟨"uq_conn_org_provider", organizationId, provider.value⟩ := List.mem_singleton.mp hk'
    obtain ⟨_, hsame, hvalue⟩ := UniqueKey.mk.inj (hkey.symm.trans hkey')
    exact hmissing r₀ hr₀ (horg.symm.trans hsame)
      (hprovider.symm.trans (StorageProvider.value_injective hvalue))
  obtain ⟨⟨new, t'⟩, ht'⟩ := hinsert
  have hrefs : refsExist c.promoted w.db = true := refsExist_connection_iff.mpr horganization
  have hadd : add c.promoted { w with db := { w.db with connections := t } } =
      .ok (new, { w with db := { w.db with connections := t' } }) :=
    (add_ok_iff _ _ _ _).mpr ⟨hrefs, t', ht', rfl⟩
  refine ⟨new, { w with db := { w.db with connections := t' } }, ?_⟩
  simp only [StorageService.connectBucket, Work.bind_ok_iff, Work.lift_ok_iff, lift_work_ok_iff]
  exact ⟨none, w, ⟨hnone, rfl⟩, (), w, ⟨rfl, rfl⟩, _, _, hpromote, hadd⟩

namespace DocumentService

variable {documentId : Nat} {document : Document} {contract : Contract} {c : StorageConnection}

theorem uploadTarget_of_primary (hdocument : w.db.documents.get documentId = some document)
    (hcontract : w.db.contracts.get document.contractId = some contract)
    (hprimary : getPrimaryForOrganization contract.organizationId w = .ok (some c)) :
    uploadTarget documentId w = .ok (document, contract, c) := by
  simp only [uploadTarget, get, ContractService.get, Read.bind_ok_iff, require_ok_iff, lift_query_ok_iff]
  exact ⟨document, hdocument, contract, hcontract, some c, hprimary, c, rfl, rfl⟩

theorem commitVersion_succeeds (env : Env) (key : String) (u : Upload) (hdocument : document ∈ w.db.documents.rows)
    (hrefs : refsExist document w.db = true) (hc : c ∈ w.db.connections.rows) :
    ∃ v w', commitVersion env document c.id key u w = .ok (v, w') := by
  let v := newVersion env w.db.nextVersionId document c.id key u
  have hconnection : (w.db.connections.get c.id).isSome = true := by
    have hget : w.db.connections.get c.id = some c := Table.get_eq_some_iff.mpr ⟨hc, rfl⟩
    rw [hget]
    rfl
  have hrefs' : refsExist (document.addVersion v env.now) w.db = true := by
    simp only [refsExist, Stored.refs, Document.addVersion, List.map_append, List.all_cons, List.all_append,
      Bool.and_eq_true] at hrefs ⊢
    refine ⟨hrefs.1, hrefs.2, ?_⟩
    simpa [v, newVersion, Database.has] using hconnection
  obtain ⟨w', hsave⟩ := save_same_keys (a := document.addVersion v env.now) hdocument rfl rfl hrefs'
  refine ⟨v, { w' with db := { w'.db with nextVersionId := w.db.nextVersionId + 1 } }, ?_⟩
  rw [commitVersion_apply, Work.bind_apply, hsave]
  rfl

/-- An upload goes to the primary connection, if this has what its adapter needs and takes the
bytes. -/
theorem uploadVersion_succeeds {bucket : Bucket} {u : Upload}
    (hdocument : w.db.documents.get documentId = some document)
    (hcontract : w.db.contracts.get document.contractId = some contract)
    (hprimary : getPrimaryForOrganization contract.organizationId w = .ok (some c))
    (hrefs : refsExist document w.db = true)
    (hbuild : buildFileStorage env c (c.credential.getD .empty) w = .ok bucket)
    (hput : env.putFails bucket (storageKey contract document u.filename) = false) :
    ∃ v, (uploadVersion env documentId u w).1 = .ok v := by
  have hc : c ∈ w.db.connections.rows := (oneOrNone_eq_some hprimary).1
  obtain ⟨v, w', hcommit⟩ := commitVersion_succeeds env (storageKey contract document u.filename) u
    (w := { w with files := putFile w.files bucket (storageKey contract document u.filename) u.content })
    (Table.get_eq_some_iff.mp hdocument).1 hrefs hc
  refine ⟨v, ?_⟩
  unfold uploadVersion
  rw [Program.bind_apply, Program.read_apply, uploadTarget_of_primary hdocument hcontract hprimary]
  simp only
  rw [Program.bind_apply, Program.read_apply, hbuild]
  simp only
  rw [Program.bind_apply]
  unfold putObject
  rw [if_neg (by simp [hput])]
  simp only
  rw [Program.commit_apply]
  unfold putFile at hcommit
  rw [hcommit]

end DocumentService

end Orchestract
