import Orchestract.Application.Documents

/-!
# The public side of share links

What a share link exposes, and the services of `app/application/sharing_service.py` behind the
public pages.
-/

namespace Orchestract

set_option autoImplicit false

namespace ShareLink

def hasPassword (l : ShareLink) : Bool := l.passwordHash.isSome

def verifyPassword (verify : String → String → Bool) (l : ShareLink) (rawPassword : String) : Bool :=
  match l.passwordHash with
  | none => true
  | some hash => verify rawPassword hash

/-- `None` is every document of the contract. -/
def allowedDocumentIds (l : ShareLink) : Option (List Nat) :=
  if l.scope = .contract then none else some l.documents

def allowsDocument (l : ShareLink) (documentId : Nat) : Bool :=
  match l.allowedDocumentIds with
  | none => true
  | some ids => documentId ∈ ids

def recordAccess (l : ShareLink) (now : Nat) : ShareLink := { l with lastAccessedAt := some now }

theorem mem_distinct_iff {ids : List Nat} {id : Nat} : id ∈ distinct ids ↔ id ∈ ids := by
  have hfold : ∀ (ids seen : List Nat),
      id ∈ ids.foldl (fun seen id => if id ∈ seen then seen else seen ++ [id]) seen ↔ id ∈ seen ∨ id ∈ ids := by
    intro ids
    induction ids with
    | nil => simp
    | cons first rest ih =>
      intro seen
      rw [List.foldl_cons, ih, List.mem_cons]
      split
      · rename_i hseen
        constructor
        · exact fun h => h.imp_right Or.inr
        · rintro (h | rfl | h)
          · exact Or.inl h
          · exact Or.inl hseen
          · exact Or.inr h
      · simp [or_assoc]
  exact (hfold ids []).trans (by simp)

theorem distinct_nodup (ids : List Nat) : (distinct ids).Nodup := by
  have hfold : ∀ (ids seen : List Nat), seen.Nodup →
      (ids.foldl (fun seen id => if id ∈ seen then seen else seen ++ [id]) seen).Nodup := by
    intro ids
    induction ids with
    | nil => exact fun _ h => h
    | cons first rest ih =>
      intro seen hseen
      apply ih
      dsimp only
      split
      · exact hseen
      · rename_i hfresh
        exact List.nodup_append.mpr ⟨hseen, List.nodup_singleton _, fun a ha b hb hab =>
          hfresh (List.mem_singleton.mp hb ▸ hab ▸ ha)⟩
  exact hfold ids [] List.nodup_nil

theorem issue_ok_iff {contractId ttl now : Nat} {scope : ShareScope} {allowDownload : Bool}
    {createdBy token : String} {documentIds : List Nat} {passwordHash : Option String} {l : ShareLink} :
    issue contractId scope allowDownload ttl createdBy documentIds passwordHash token now = .ok l ↔
      (scope = .documents → distinct documentIds ≠ []) ∧
        ⟨0, contractId, token, scope, passwordHash, allowDownload, createdBy, now, now + ttl, none, none,
          if scope = .documents then distinct documentIds else []⟩ = l := by
  simp [issue]

end ShareLink

namespace SharingService

def getByToken (token : String) : Query (Option ShareLink) :=
  oneOrNone (fun l : ShareLink => l.token = token)

def getActiveLink (env : Env) (token : String) : Query ShareLink := do
  let found ← getByToken token
  orRaise DomainError.shareLinkNotActive (found.filter fun l => l.isActive env.now)

def markAccessed (env : Env) (token : String) : UnitOfWork Unit := do
  match ← getByToken token with
  | none => return ()
  | some link => save (link.recordAccess env.now)

def resolveSharedDocuments (link : ShareLink) : Query (Contract × List Document) := do
  let contract ← ContractService.get link.contractId
  let documents ← ContractService.documentsOf contract.id
  match link.allowedDocumentIds with
  | none => return (contract, documents)
  | some ids => return (contract, documents.filter fun d => d.id ∈ ids)

def getSharedVersion (env : Env) (link : ShareLink) (documentId versionId : Nat) :
    Query (DocumentVersion × Bytes) := do
  raiseIf (¬ link.allowsDocument documentId) (DomainError.notFound "document not found")
  let found ← (find documentId : Query (Option Document))
  let document ← orRaise (DomainError.notFound "document not found")
    (found.filter fun d => d.contractId = link.contractId)
  let version ← orRaise (DomainError.notFound "file version not found")
    (document.versions.find? fun v => v.id = versionId)
  let data ← DocumentService.downloadVersion env version
  return (version, data)

/-! ## What they do -/

theorem createLink_ok {env : Env} {contractId expiresInHours : Nat} {scope : ShareScope}
    {allowDownload : Bool} {createdBy : String} {documentIds : List Nat} {rawPassword : Option String}
    {l : ShareLink} {w w' : World}
    (h : createLink env contractId scope allowDownload expiresInHours createdBy documentIds rawPassword w =
      .ok (l, w')) :
    ∃ c ids, w.db.contracts.get contractId = some c ∧ ids.Nodup ∧ (scope = .documents → ids ≠ []) ∧
      (∀ id ∈ ids, ∃ d, w.db.documents.get id = some d ∧ d.contractId = contractId) ∧
      add (⟨0, contractId, env.randomToken, scope, (rawPassword.bind Text.orNone).map env.hashPassword,
        allowDownload, createdBy, env.now, env.now + expiresInHours * 3600, none, none,
        if scope = .documents then ids else []⟩ : ShareLink) w = .ok (l, w') := by
  simp only [createLink, ContractService.get, ContractService.documentsOf, Work.bind_ok_iff,
    Work.lift_ok_iff, require_ok_iff, select_apply, Except.ok.injEq, lift_work_ok_iff] at h
  obtain ⟨c, _, ⟨hc, rfl⟩, documents, _, ⟨rfl, rfl⟩, link, _, ⟨hlink, rfl⟩, hadd⟩ := h
  obtain ⟨hsome, rfl⟩ := ShareLink.issue_ok_iff.mp hlink
  refine ⟨c, _, hc, ShareLink.distinct_nodup _, hsome, fun id hid => ?_, hadd⟩
  have hid := ShareLink.mem_distinct_iff.mp hid
  split at hid
  · obtain ⟨_, hvalid⟩ := List.mem_filter.mp hid
    obtain ⟨d, hd, rfl⟩ := List.mem_map.mp (of_decide_eq_true hvalid)
    obtain ⟨hmem, hcontract⟩ := Table.mem_select_iff.mp hd
    obtain ⟨_, hcid⟩ := Table.get_eq_some_iff.mp hc
    exact ⟨d, Table.get_eq_some_iff.mpr ⟨hmem, rfl⟩, (of_decide_eq_true hcontract).trans hcid⟩
  · cases hid

theorem getByToken_ok {token : String} {l : ShareLink} {w : World}
    (h : getByToken token w = .ok (some l)) : l ∈ w.db.shareLinks.rows ∧ l.token = token := by
  obtain ⟨hmem, htoken⟩ := oneOrNone_eq_some h
  exact ⟨hmem, by simpa using htoken⟩

/-- A link is found by its token. -/
theorem getByToken_of_mem {l : ShareLink} {w : World} (h : l ∈ w.db.shareLinks.rows) :
    getByToken l.token w = .ok (some l) := by
  apply oneOrNone_of_singleton
  refine Table.select_unique (k := ⟨"share_links_token", 0, l.token⟩) h (by simp) fun r _ hr => ?_
  have htoken : r.token = l.token := by simpa using hr
  rw [← htoken]
  exact List.mem_singleton_self _

theorem getActiveLink_ok_iff {env : Env} {token : String} {l : ShareLink} {w : World} :
    getActiveLink env token w = .ok l ↔
      l ∈ w.db.shareLinks.rows ∧ l.token = token ∧ l.isActive env.now = true := by
  simp only [getActiveLink, Read.bind_ok_iff, lift_query_ok_iff, orRaise_ok_iff]
  constructor
  · rintro ⟨found, hfound, hl⟩
    obtain ⟨rfl, hactive⟩ := Option.filter_eq_some_iff.mp hl
    obtain ⟨hmem, htoken⟩ := getByToken_ok hfound
    exact ⟨hmem, htoken, hactive⟩
  · rintro ⟨hmem, rfl, hactive⟩
    exact ⟨some l, getByToken_of_mem hmem, Option.filter_eq_some_iff.mpr ⟨rfl, hactive⟩⟩

theorem markAccessed_ok {env : Env} {token : String} {w w' : World} {u : Unit}
    (h : markAccessed env token w = .ok (u, w')) :
    w' = w ∨ ∃ l ∈ w.db.shareLinks.rows, save (l.recordAccess env.now) w = .ok ((), w') := by
  simp only [markAccessed, Work.bind_ok_iff, Work.lift_ok_iff] at h
  obtain ⟨found, _, ⟨hfound, rfl⟩, h⟩ := h
  cases found with
  | none =>
    obtain ⟨_, rfl⟩ := (Work.pure_ok_iff _ _ _ _).mp h
    exact Or.inl rfl
  | some l => exact Or.inr ⟨l, (getByToken_ok hfound).1, h⟩

end SharingService

end Orchestract
