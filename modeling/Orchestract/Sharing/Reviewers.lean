import Orchestract.Sharing.Exposure
import Orchestract.Sharing.Unlocking
import Orchestract.Web.SharedView

/-!
# What a reviewer gets

Whom a share link lets in is what the history says: the link has been issued and not revoked since, it
has not expired, and the reviewer of a protected link sends its own cookie. Who is let in gets the
documents of the link, each version with the bytes that were uploaded for it.
-/

namespace Orchestract

set_option autoImplicit false

open SharedPages

/-- The link that a change issues. -/
def Change.shares (s : System) : Change → Option ShareLink
  | .call ⟨env, .createLink contractId scope allowDownload expiresInHours createdBy documentIds rawPassword⟩ =>
    (SharingService.createLink env contractId scope allowDownload expiresInHours createdBy documentIds
      rawPassword s.world).toOption.map Prod.fst
  | _ => none

/-- The change is a request to revoke the link. -/
def Change.Revokes (l : ShareLink) : Change → Prop
  | .call ⟨_, .revokeLink contractId linkId⟩ => contractId = l.contractId ∧ linkId = l.id
  | _ => False

/-- One of the changes has issued the link, and none after it has revoked it. -/
def StillShared (files : Bucket → String → Option Bytes) (changes : List Change) (l : ShareLink) : Prop :=
  ∃ before c after, changes = before ++ c :: after ∧ c.shares (System.after files before) = some l ∧
    ∀ c' ∈ after, ¬ c'.Revokes l

/-- Whom the link lets in: it is shared and has not expired, and to a protected one its own cookie is
presented. -/
structure Invited (mac : String → String) (env : Env) (presented : Option String)
    (files : Bucket → String → Option Bytes) (changes : List Change) (l : ShareLink) : Prop where
  shared : StillShared files changes l
  current : env.now < l.expiresAt
  unlocked : l.hasPassword = true → presented = some (shareUnlockToken mac l.token)

/-- The response shows documents, or it is the cookie that opens a link. -/
def ShareResponse.grants (r : ShareResponse) : Bool := r.serves || r.issued.isSome

/-- What is granted after these changes, for which request. -/
inductive Granted (mac : String → String) (env : Env) (presented : Option String)
    (files : Bucket → String → Option Bytes) (changes : List Change) : PublicRequest → Seen → Prop
  | view {l : ShareLink} {contract : Contract} : Invited mac env presented files changes l →
    (System.after files changes).world.db.contracts.get l.contractId = some contract →
    Granted mac env presented files changes (.landing l.token)
      (.view 200 (sharedView l.token l contract (l.listed (System.after files changes).world)))
  | unlocked {l : ShareLink} {password : String} : StillShared files changes l → env.now < l.expiresAt →
    l.hasPassword = true → l.verifyPassword env.verifyPassword password = true →
    Granted mac env presented files changes (.unlock l.token password)
      (.other (.unlocked s!"/share/{l.token}"
        ⟨shareUnlockToken mac l.token, l.expiresAt - env.now, s!"/share/{l.token}"⟩))
  | file {l : ShareLink} {d : Document} {v : DocumentVersion} {u : DocumentService.Upload} (download : Bool) :
    Invited mac env presented files changes l → d ∈ l.listed (System.after files changes).world →
    (v, u) ∈ d.versions.zip (uploaded files changes d.id) →
    Granted mac env presented files changes (.raw l.token d.id v.id download)
      (.other (.other (Response.storedFile u.content v (download && l.allowDownload))))

/-- What `hexdigest` returns. -/
def IsDigest (value : String) : Prop := value ≠ "" ∧ ∀ c ∈ value.toList, c.toNat < 128

variable {mac : String → String} {env : Env} {presented : Option String}
  {files : Bucket → String → Option Bytes} {changes : List Change} {s : System} {c : Change} {w : World}
  {l r : ShareLink}

/-! ## Links that stand -/

/-- The link as it was issued, whoever has visited it since. -/
def ShareLink.unvisited (l : ShareLink) : ShareLink := { l with lastAccessedAt := none }

/-- The link is stored and has not been revoked. -/
def System.Stands (s : System) (l : ShareLink) : Prop :=
  l.revokedAt = none ∧ ∃ r ∈ s.world.db.shareLinks.rows, r.unvisited = l

theorem stands_of_same {s' : System} (hsame : s'.world.db.shareLinks = s.world.db.shareLinks)
    (hshares : c.shares s = none) (hrevokes : ¬ c.Revokes l) :
    s'.Stands l ↔ c.shares s = some l ∨ s.Stands l ∧ ¬ c.Revokes l := by
  unfold System.Stands
  rw [hsame, hshares]
  simp [hrevokes]

theorem stands_createLink {contractId expiresInHours : Nat} {scope : ShareScope} {allowDownload : Bool}
    {createdBy : String} {documentIds : List Nat} {rawPassword : Option String} :
    let c : Change := .call ⟨env, .createLink contractId scope allowDownload expiresInHours createdBy documentIds
      rawPassword⟩
    (s.next c).Stands l ↔ c.shares s = some l ∨ s.Stands l := by
  intro c
  have hnext : s.next c = (Operation.unit (SharingService.createLink env contractId scope allowDownload
      expiresInHours createdBy documentIds rawPassword) s).2 := rfl
  rw [hnext, unit_apply]
  cases hcreate : SharingService.createLink env contractId scope allowDownload expiresInHours createdBy documentIds
      rawPassword s.world with
  | error e => simp [c, Change.shares, hcreate, Except.toOption]
  | ok p =>
    obtain ⟨new, w'⟩ := p
    obtain ⟨_, ids, _, _, _, _, hadd⟩ := SharingService.createLink_ok hcreate
    obtain ⟨_, t, ht, rfl⟩ := (add_ok_iff _ new s.world w').mp hadd
    obtain ⟨hnew, hrows, _⟩ := Table.insert_eq_some ht
    have hunvisited : new.unvisited = new := by
      rw [hnew]
      rfl
    have hrevoked : new.revokedAt = none := by
      rw [hnew]
      rfl
    have hshares : c.shares s = some new := by simp [c, Change.shares, hcreate, Except.toOption]
    unfold System.Stands
    rw [hshares, Option.some.injEq]
    constructor
    · rintro ⟨hl, r, hr, rfl⟩
      rcases (Table.mem_insert_iff ht).mp hr with hr | rfl
      · exact Or.inr ⟨hl, r, hr, rfl⟩
      · exact Or.inl hunvisited.symm
    · rintro (rfl | ⟨hl, r, hr, hunvisited⟩)
      · exact ⟨hrevoked, new, (Table.mem_insert_iff ht).mpr (Or.inr rfl), hunvisited⟩
      · exact ⟨hl, r, (Table.mem_insert_iff ht).mpr (Or.inl hr), hunvisited⟩

theorem revoke_succeeds (env : Env) (hs : Sound w) (hr : r ∈ w.db.shareLinks.rows) :
    ∃ w', SharingService.revoke env r.contractId r.id w = .ok ((), w') := by
  obtain ⟨t, _, hsave⟩ := save_continues hs hr (r.continues_revoke env.now)
  refine ⟨{ w with db := { w.db with shareLinks := t } }, ?_⟩
  simp only [SharingService.revoke, Work.bind_ok_iff, Work.lift_ok_iff, lift_work_ok_iff, find_apply,
    orRaise_ok_iff, Except.ok.injEq]
  refine ⟨_, _, ⟨rfl, rfl⟩, r, _, ⟨?_, rfl⟩, hsave⟩
  exact Option.filter_eq_some_iff.mpr ⟨Table.get_eq_some_iff.mpr ⟨hr, rfl⟩, by simp⟩

theorem revokedAt_revoke_ne (l : ShareLink) (now : Nat) : (l.revoke now).revokedAt ≠ none := by
  unfold ShareLink.revoke
  split
  · simp
  · assumption

/-- A request that names the contract and the id of a link ends it, and no other. -/
theorem stands_revokeLink (hs : Sound s.world) {contractId linkId : Nat} :
    (s.next (.call ⟨env, .revokeLink contractId linkId⟩)).Stands l ↔
      s.Stands l ∧ ¬ (contractId = l.contractId ∧ linkId = l.id) := by
  have hnext : s.next (.call ⟨env, .revokeLink contractId linkId⟩) =
      (Operation.unit (SharingService.revoke env contractId linkId) s).2 := rfl
  rw [hnext, unit_apply]
  cases hrevoke : SharingService.revoke env contractId linkId s.world with
  | error e =>
    refine (and_iff_left_of_imp ?_).symm
    rintro ⟨_, r, hr, rfl⟩ ⟨rfl, rfl⟩
    obtain ⟨w', hsaved⟩ := revoke_succeeds env hs hr
    have hsame : SharingService.revoke env r.contractId r.id s.world = .error e := hrevoke
    rw [hsaved] at hsame
    cases hsame
  | ok p =>
    obtain ⟨⟨⟩, w'⟩ := p
    obtain ⟨revoked, hrevoked, hcontract, hsave⟩ := revoke_ok hrevoke
    obtain ⟨_, t, ht, rfl⟩ := (save_ok_iff _ s.world w').mp hsave
    obtain ⟨hmem, hid⟩ := Table.get_eq_some_iff.mp hrevoked
    have hrow : (revoked.revoke env.now).id = revoked.id := (shareLink_revoke_fields revoked env.now).1
    constructor
    · rintro ⟨hl, r, hr, rfl⟩
      rcases Table.mem_update ht hr with rfl | ⟨hr, hne⟩
      · exact absurd hl (revokedAt_revoke_ne revoked env.now)
      · refine ⟨⟨hl, r, hr, rfl⟩, fun hnamed => hne ?_⟩
        exact hnamed.2.symm.trans (hid.symm.trans hrow.symm)
    · rintro ⟨⟨hl, r, hr, rfl⟩, hother⟩
      have hne : Row.id r ≠ Row.id (revoked.revoke env.now) := by
        intro heq
        obtain rfl := Table.eq_of_id hr hmem (heq.trans hrow)
        exact hother ⟨hcontract.symm, hid.symm⟩
      obtain ⟨hrows, _⟩ := Table.update_eq_some ht
      exact ⟨hl, r, hrows ▸ mem_overwrite_of_ne hr hne, rfl⟩

/-- A visit leaves every link but for the time of its last access. -/
theorem stands_visit {token : String} : (s.next (.visit env token)).Stands l ↔ s.Stands l := by
  have hnext : s.next (.visit env token) = (Operation.unit (SharingService.markAccessed env token) s).2 := rfl
  rw [hnext, unit_apply]
  cases hmark : SharingService.markAccessed env token s.world with
  | error e => exact Iff.rfl
  | ok p =>
    obtain ⟨⟨⟩, w'⟩ := p
    rcases SharingService.markAccessed_ok hmark with rfl | ⟨visited, hvisited, hsave⟩
    · exact Iff.rfl
    · obtain ⟨_, t, ht, rfl⟩ := (save_ok_iff _ s.world w').mp hsave
      refine and_congr_right fun _ => ?_
      constructor
      · rintro ⟨r, hr, rfl⟩
        rcases Table.mem_update ht hr with rfl | ⟨hr, _⟩
        · exact ⟨visited, hvisited, rfl⟩
        · exact ⟨r, hr, rfl⟩
      · rintro ⟨r, hr, rfl⟩
        by_cases hid : Row.id r = Row.id visited
        · obtain rfl := Table.eq_of_id hr hvisited hid
          exact ⟨_, Table.mem_of_update ht hr rfl, rfl⟩
        · obtain ⟨hrows, _⟩ := Table.update_eq_some ht
          exact ⟨r, hrows ▸ mem_overwrite_of_ne hr hid, rfl⟩

theorem stands_next (hs : Sound s.world) :
    (s.next c).Stands l ↔ c.shares s = some l ∨ s.Stands l ∧ ¬ c.Revokes l := by
  cases c with
  | call i =>
    obtain ⟨env, operation⟩ := i
    cases operation with
    | createLink => simpa [Change.Revokes] using stands_createLink
    | revokeLink contractId linkId =>
      refine (stands_revokeLink hs).trans ?_
      simp [Change.shares, Change.Revokes]
    | _ =>
      exact stands_of_same (next_same (n := .shareLinks) (by simp [Change.footprint, Operation.footprint])) rfl
        (fun h => h)
  | visit env token => simpa [Change.shares, Change.Revokes] using stands_visit
  | _ => exact stands_of_same (next_same (n := .shareLinks) (by simp [Change.footprint])) rfl (fun h => h)

/-- The links that stand are those that are shared. -/
theorem stands_iff : (System.after files changes).Stands l ↔ StillShared files changes l := by
  have hsince : StillShared files changes l ↔ Runs.Since System.next (fun s c => c.shares s = some l)
      (fun _ c => c.Revokes l) (.initial files) changes := by
    rw [Runs.since_iff_forall]
    rfl
  rw [hsince]
  refine Runs.flag_iff (P := fun s : System => s.Stands l) (I := fun s => Sound s.world) (C := fun _ _ => True)
    (fun s c hs _ => next_keeps (fun site _ => keptBy_sound site) hs) (fun s c hs _ => stands_next hs) ?_ ?_
    (Runs.along_of_forall (fun _ _ => trivial) _ _)
  · exact sound_after files []
  · rintro ⟨_, r, hr, _⟩
    cases hr

/-! ## Versions with their bytes -/

/-- What is downloaded through a link is what has been uploaded. -/
theorem getSharedVersion_after {settings : Settings} (hstay : SettingsStay settings changes)
    (henv : env.settings = settings) {documentId versionId : Nat} {v : DocumentVersion} {data : Bytes} :
    SharingService.getSharedVersion env l documentId versionId (System.after files changes).world = .ok (v, data) ↔
      ∃ d ∈ l.listed (System.after files changes).world, d.id = documentId ∧ v.id = versionId ∧
        ∃ u, (v, u) ∈ d.versions.zip (uploaded files changes d.id) ∧ data = u.content := by
  rw [getSharedVersion_eq_ok_iff]
  refine exists_congr fun d => and_congr_right fun hd => and_congr_right fun _ => ?_
  have hmem : d ∈ (System.after files changes).world.db.documents.rows := (ShareLink.mem_listed_iff.mp hd).1
  have hkept := (kept_after files hstay).versions d hmem
  have hbytes : ∀ {v u}, (v, u) ∈ d.versions.zip (uploaded files changes d.id) →
      DocumentService.downloadVersion env v (System.after files changes).world = .ok u.content :=
    fun hu => (served_of_placed (List.forall₂_zip hkept hu)).download env henv
  rw [find_version_iff (versionsApart_after files changes d hmem)]
  constructor
  · rintro ⟨⟨hv, hid⟩, hdata⟩
    obtain ⟨u, hu⟩ := exists_zip_of_forall₂ hkept hv
    rw [hbytes hu] at hdata
    exact ⟨hid, u, hu, (Except.ok.inj hdata).symm⟩
  · rintro ⟨hid, u, hu, rfl⟩
    exact ⟨⟨(List.of_mem_zip hu).1, hid⟩, hbytes hu⟩

/-! ## Pages -/

/-- To a link that is not protected any cookie is presented, to another one its own. -/
theorem isLocked_eq_false_iff (hmac : ∀ message, IsDigest (mac message)) :
    isLocked mac presented r r.token w = .ok false ↔
      (r.hasPassword = true → presented = some (shareUnlockToken mac r.token)) := by
  refine ⟨isLocked_eq_false, fun hcookie => ?_⟩
  unfold isLocked
  by_cases hpassword : r.hasPassword = true
  · obtain ⟨hne, hascii⟩ := hmac ("share:" ++ r.token)
    obtain rfl := hcookie hpassword
    have hvalue : (some (shareUnlockToken mac r.token)).bind Text.orNone = some (shareUnlockToken mac r.token) :=
      if_neg hne
    have hall : (shareUnlockToken mac r.token ++ shareUnlockToken mac r.token).toList.all
        (fun c => c.toNat < 128) = true := by
      rw [String.toList_append, List.all_append, Bool.and_self]
      exact List.all_eq_true.mpr fun c hc => decide_eq_true (hascii c hc)
    have hunlocked : isShareUnlocked mac (some (shareUnlockToken mac r.token)) r.token w = .ok true := by
      unfold isShareUnlocked compareDigest
      simp only [hvalue, hall, if_true, decide_true]
    rw [if_pos hpassword, Read.map_ok_iff]
    exact ⟨true, hunlocked, rfl⟩
  · rw [if_neg hpassword]
    rfl

/-- Whom a link lets in, as the handlers find out. -/
theorem invited_iff (hmac : ∀ message, IsDigest (mac message)) : Invited mac env presented files changes l ↔
    ∃ r ∈ (System.after files changes).world.db.shareLinks.rows, r.unvisited = l ∧ r.isActive env.now = true ∧
      isLocked mac presented r r.token (System.after files changes).world = .ok false := by
  constructor
  · rintro ⟨hshared, hcurrent, hunlocked⟩
    obtain ⟨hl, r, hr, rfl⟩ := stands_iff.mpr hshared
    have hrevoked : r.revokedAt = none := hl
    have hexpires : env.now < r.expiresAt := hcurrent
    exact ⟨r, hr, rfl, by simp [ShareLink.isActive, hrevoked, hexpires], (isLocked_eq_false_iff hmac).mpr hunlocked⟩
  · rintro ⟨r, hr, rfl, hactive, hopen⟩
    obtain ⟨hrevoked, hexpires⟩ : r.revokedAt = none ∧ env.now < r.expiresAt := by
      simpa [ShareLink.isActive] using hactive
    exact ⟨stands_iff.mp ⟨hrevoked, r, hr, rfl⟩, hexpires, (isLocked_eq_false_iff hmac).mp hopen⟩

/-- The page of a link that lets in is shown. -/
theorem landing_open (hs : Sound w) (hr : r ∈ w.db.shareLinks.rows) (hactive : r.isActive env.now = true)
    (hopen : isLocked mac presented r r.token w = .ok false) {contract : Contract}
    (hcontract : w.db.contracts.get r.contractId = some contract) :
    (handle mac env presented (.landing r.token) w).1 = .ok (.page 200 (.view r.token r contract (r.listed w))) := by
  obtain ⟨t, _, hsave⟩ := save_continues hs hr (r.continues_recordAccess env.now)
  have hmark : SharingService.markAccessed env r.token w =
      .ok ((), { w with db := { w.db with shareLinks := t } }) := by
    refine (Work.bind_ok_iff _ _ _ _ _).mpr ⟨some r, w, (Work.lift_ok_iff _ _ _ _).mpr ⟨?_, rfl⟩, hsave⟩
    exact SharingService.getByToken_of_mem hr
  refine Program.bind_ok_iff.mpr ⟨some r, ?_, ?_⟩
  · rw [Program.read_apply]
    exact activeLink_some_iff.mpr ⟨hr, rfl, hactive⟩
  rw [Program.read_apply]
  refine Program.bind_ok_iff.mpr ⟨false, ?_, ?_⟩
  · rw [Program.read_apply]
    exact hopen
  rw [Program.read_apply]
  refine Program.bind_ok_iff.mpr ⟨(), ?_, ?_⟩
  · rw [Program.commit_apply, hmark]
  rw [Program.commit_apply, hmark]
  refine Program.bind_ok_iff.mpr ⟨(contract, r.listed w), ?_, rfl⟩
  rw [Program.read_apply]
  exact resolveSharedDocuments_ok_iff.mpr ⟨hcontract, rfl⟩

/-- What the three endpoints grant of the rows they find. -/
def GrantedBy (mac : String → String) (env : Env) (presented : Option String) (w : World) (r : ShareLink) :
    PublicRequest → ShareResponse → Prop
  | .landing token, response => token = r.token ∧ isLocked mac presented r r.token w = .ok false ∧
    ∃ contract, w.db.contracts.get r.contractId = some contract ∧
      response = .page 200 (.view r.token r contract (r.listed w))
  | .unlock token password, response => token = r.token ∧ r.hasPassword = true ∧
    r.verifyPassword env.verifyPassword password = true ∧
    response = .unlocked s!"/share/{r.token}"
      ⟨shareUnlockToken mac r.token, r.expiresAt - env.now, s!"/share/{r.token}"⟩
  | .raw token documentId versionId download, response => token = r.token ∧
    isLocked mac presented r r.token w = .ok false ∧
    ∃ v data, SharingService.getSharedVersion env r documentId versionId w = .ok (v, data) ∧
      response = .other (Response.storedFile data v (download && r.allowDownload))

theorem landing_iff (hs : Sound w) {token : String} {response : ShareResponse} :
    (handle mac env presented (.landing token) w).1 = .ok response ∧ response.grants = true ↔
      ∃ r ∈ w.db.shareLinks.rows, r.isActive env.now = true ∧
        GrantedBy mac env presented w r (.landing token) response := by
  constructor
  · rintro ⟨hrun, hgrants⟩
    cases handle_ok hrun with
    | invalid => cases hgrants
    | access status error => cases hgrants
    | @view l contract documents hl hactive hopen =>
      have hexists := refsExist_shareLink (hs.refsExist hl)
      obtain ⟨stored, hstored⟩ := Option.isSome_iff_exists.mp hexists
      rw [landing_open hs hl hactive hopen hstored] at hrun
      exact ⟨l, hl, hactive, rfl, hopen, stored, hstored, (Except.ok.inj hrun).symm⟩
  · rintro ⟨r, hr, hactive, rfl, hopen, contract, hcontract, rfl⟩
    exact ⟨landing_open hs hr hactive hopen hcontract, rfl⟩

theorem unlock_iff {token password : String} {response : ShareResponse} :
    (handle mac env presented (.unlock token password) w).1 = .ok response ∧ response.grants = true ↔
      ∃ r ∈ w.db.shareLinks.rows, r.isActive env.now = true ∧
        GrantedBy mac env presented w r (.unlock token password) response := by
  have hopens : ∀ r ∈ w.db.shareLinks.rows, r.isActive env.now = true → r.hasPassword = true →
      r.verifyPassword env.verifyPassword password = true →
      shareUnlock mac env r.token password w = .ok (.unlocked s!"/share/{r.token}"
        ⟨shareUnlockToken mac r.token, r.expiresAt - env.now, s!"/share/{r.token}"⟩) := by
    intro r hr hactive hprotected hverify
    unfold shareUnlock
    rw [Read.bind_ok (activeLink_some_iff.mpr ⟨hr, rfl, hactive⟩)]
    dsimp only
    rw [if_neg (not_or.mpr ⟨not_not.mpr hprotected, not_not.mpr hverify⟩)]
    rfl
  constructor
  · rintro ⟨hrun, hgrants⟩
    cases handle_ok hrun with
    | invalid => cases hgrants
    | access status error => cases hgrants
    | unlocked hl hactive hprotected hverify =>
      rw [handle_unlock, hopens _ hl hactive hprotected hverify] at hrun
      exact ⟨_, hl, hactive, rfl, hprotected, hverify, (Except.ok.inj hrun).symm⟩
  · rintro ⟨r, hr, hactive, rfl, hprotected, hverify, rfl⟩
    rw [handle_unlock]
    exact ⟨hopens r hr hactive hprotected hverify, rfl⟩

theorem raw_iff {token : String} {documentId versionId : Nat} {download : Bool} {response : ShareResponse} :
    (handle mac env presented (.raw token documentId versionId download) w).1 = .ok response ∧
        response.grants = true ↔
      ∃ r ∈ w.db.shareLinks.rows, r.isActive env.now = true ∧
        GrantedBy mac env presented w r (.raw token documentId versionId download) response := by
  rw [handle_raw]
  constructor
  · rintro ⟨hrun, _⟩
    obtain ⟨found, hfound, hrun⟩ := (Read.bind_ok_iff _ _ _ _).mp hrun
    cases found with
    | none => cases hrun
    | some r =>
      obtain ⟨hr, rfl, hactive⟩ := activeLink_some_iff.mp hfound
      obtain ⟨locked, hlocked, hrun⟩ := (Read.bind_ok_iff _ _ _ _).mp hrun
      cases locked with
      | true => cases hrun
      | false =>
        obtain ⟨⟨v, data⟩, hserved, hrun⟩ := (Read.bind_ok_iff _ _ _ _).mp hrun
        exact ⟨r, hr, hactive, rfl, hlocked, v, data, hserved, (Except.ok.inj hrun).symm⟩
  · rintro ⟨r, hr, hactive, rfl, hopen, v, data, hserved, rfl⟩
    refine ⟨?_, rfl⟩
    change shareDocumentRaw mac env presented r.token documentId versionId download w = _
    unfold shareDocumentRaw
    rw [Read.bind_ok (activeLink_some_iff.mpr ⟨hr, rfl, hactive⟩)]
    dsimp only
    rw [Read.bind_ok hopen, if_neg Bool.false_ne_true, Read.bind_ok hserved]
    rfl

/-- What is granted, by the rows. -/
theorem respond_grants_iff (hs : Sound w) {request : PublicRequest} {response : ShareResponse} :
    (SharedPages.respond mac env presented request w).1 = response ∧ response.grants = true ↔
      ∃ r ∈ w.db.shareLinks.rows, r.isActive env.now = true ∧ GrantedBy mac env presented w r request response := by
  have hanswer : (SharedPages.respond mac env presented request w).1 = response ∧ response.grants = true ↔
      (handle mac env presented request w).1 = .ok response ∧ response.grants = true := by
    refine and_congr_left fun hgrants => ?_
    rw [respond_apply]
    cases hrun : (handle mac env presented request w).1 with
    | ok answer => simp
    | error e =>
      simp only [reduceCtorEq, iff_false]
      rintro rfl
      have hnone : (ShareResponse.other (.ofFailure e)).grants = false := by
        unfold ShareResponse.grants
        rw [serves_ofFailure]
        rfl
      rw [hnone] at hgrants
      cases hgrants
  rw [hanswer]
  cases request with
  | landing token => exact landing_iff hs
  | unlock token password => exact unlock_iff
  | raw token documentId versionId download => exact raw_iff

/-- Where nothing is granted, nothing changes. -/
theorem respond_refused (hs : Sound w) {request : PublicRequest}
    (h : (SharedPages.respond mac env presented request w).1.grants = false) :
    (SharedPages.respond mac env presented request w).2 = w := by
  rw [respond_apply] at h ⊢
  cases request with
  | unlock token password => rw [handle_unlock]
  | raw token documentId versionId download => rw [handle_raw]
  | landing token =>
    rcases Program.after_read (activeLink env token) _ w with hstop | ⟨found, hfound, hgo⟩
    · exact hstop
    · refine Eq.trans hgo ?_
      cases found with
      | none => rfl
      | some l =>
        rcases Program.after_read (isLocked mac presented l token) _ w with hstop | ⟨locked, hlocked, hgo⟩
        · exact hstop
        · refine Eq.trans hgo ?_
          cases locked with
          | true => rfl
          | false =>
            obtain ⟨hl, rfl, hactive⟩ := activeLink_some_iff.mp hfound
            obtain ⟨contract, hcontract⟩ := Option.isSome_iff_exists.mp (refsExist_shareLink (hs.refsExist hl))
            rw [landing_open hs hl hactive hlocked hcontract] at h
            cases h

/-- After any history the public pages grant what the history says and nothing else, and where nothing
is granted nothing changes. -/
theorem granted_iff {settings : Settings} (hstay : SettingsStay settings changes) (henv : env.settings = settings)
    (hmac : ∀ message, IsDigest (mac message)) {request : PublicRequest} {answer : Seen} :
    let w := (System.after files changes).world
    let responded := SharedPages.respond mac env presented request w
    (responded.1.grants = true ∧ responded.1.seen = answer ↔
      Granted mac env presented files changes request answer) ∧
      (responded.1.grants = false → responded.2 = w) := by
  intro w responded
  have hsound : Sound w := sound_after files changes
  refine ⟨⟨?_, ?_⟩, respond_refused hsound⟩
  · rintro ⟨hgrants, rfl⟩
    obtain ⟨r, hr, hactive, hby⟩ := (respond_grants_iff hsound).mp ⟨rfl, hgrants⟩
    have hinvited : isLocked mac presented r r.token w = .ok false →
        Invited mac env presented files changes r.unvisited :=
      fun hopen => (invited_iff hmac).mpr ⟨r, hr, rfl, hactive, hopen⟩
    change GrantedBy mac env presented w r request responded.1 at hby
    generalize responded.1 = response at hby
    cases request with
    | landing token =>
      obtain ⟨rfl, hopen, contract, hcontract, rfl⟩ := hby
      exact .view (l := r.unvisited) (hinvited hopen) hcontract
    | unlock token password =>
      obtain ⟨rfl, hprotected, hverify, rfl⟩ := hby
      obtain ⟨hrevoked, hexpires⟩ : r.revokedAt = none ∧ env.now < r.expiresAt := by
        simpa [ShareLink.isActive] using hactive
      exact .unlocked (l := r.unvisited) (stands_iff.mp ⟨hrevoked, r, hr, rfl⟩) hexpires hprotected hverify
    | raw token documentId versionId download =>
      obtain ⟨rfl, hopen, v, data, hserved, rfl⟩ := hby
      obtain ⟨d, hd, rfl, rfl, u, hu, rfl⟩ := (getSharedVersion_after hstay henv).mp hserved
      exact .file (l := r.unvisited) download (hinvited hopen) hd hu
  · intro hgranted
    have hrespond : ∀ {response : ShareResponse} {r : ShareLink}, response.seen = answer →
        r ∈ w.db.shareLinks.rows → r.isActive env.now = true → GrantedBy mac env presented w r request response →
        responded.1.grants = true ∧ responded.1.seen = answer := by
      intro response r hseen hr hactive hby
      obtain ⟨hresponse, hgrants⟩ := (respond_grants_iff hsound).mpr ⟨r, hr, hactive, hby⟩
      have hresponse : responded.1 = response := hresponse
      rw [hresponse]
      exact ⟨hgrants, hseen⟩
    cases hgranted with
    | view hinvited hcontract =>
      obtain ⟨r, hr, rfl, hactive, hopen⟩ := (invited_iff hmac).mp hinvited
      exact hrespond rfl hr hactive ⟨rfl, hopen, _, hcontract, rfl⟩
    | unlocked hshared hcurrent hprotected hverify =>
      obtain ⟨hl, r, hr, rfl⟩ := stands_iff.mpr hshared
      have hrevoked : r.revokedAt = none := hl
      have hexpires : env.now < r.expiresAt := hcurrent
      exact hrespond rfl hr (by simp [ShareLink.isActive, hrevoked, hexpires]) ⟨rfl, hprotected, hverify, rfl⟩
    | file download hinvited hd hu =>
      obtain ⟨r, hr, rfl, hactive, hopen⟩ := (invited_iff hmac).mp hinvited
      exact hrespond rfl hr hactive
        ⟨rfl, hopen, _, _, (getSharedVersion_after hstay henv).mpr ⟨_, hd, rfl, rfl, _, hu, rfl⟩, rfl⟩

/-- The digests of the tokens of Alice's links. -/
def exampleDigest (message : String) : String :=
  if message = "share:first" then exampleMac.mac "share:first" else exampleMac.mac "share:second"

/-- The reviewer of Alice's first link downloads the first draft of her lease, until she revokes it. -/
theorem granted_iff_leaseShares :
    let shares := leaseShares.map Change.call
    let cookie := some (exampleDigest "share:first")
    let request : PublicRequest := .raw "first" 1 1 true
    let answer : Seen := .other (.other ⟨200, .file [1, 2, 3] "application/pdf" "lease.pdf" true, none⟩)
    Granted exampleDigest (.offline 5 "") cookie (fun _ _ => none) shares request answer ∧
      ¬ Granted exampleDigest (.offline 5 "") cookie (fun _ _ => none)
        (shares ++ [.call ⟨.offline 4 "", .revokeLink 1 1⟩]) request answer := by
  intro shares cookie request answer
  have hdigest : ∀ value : String, value ≠ "" → value.toList.all (fun c => c.toNat < 128) = true → IsDigest value :=
    fun value hne hall => ⟨hne, fun c hc => of_decide_eq_true (List.all_eq_true.mp hall c hc)⟩
  have hmac : ∀ message, IsDigest (exampleDigest message) := by
    intro message
    unfold exampleDigest
    split
    · exact hdigest _ (by decide) (by decide +kernel)
    · exact hdigest _ (by decide) (by decide +kernel)
  have hshares : SettingsStay (Env.offline 1 "token").settings shares := by
    intro i hi
    obtain ⟨_, hshare, heq⟩ := List.mem_map.mp hi
    obtain rfl := Change.call.inj heq
    rcases List.mem_append.mp hshare with hi | hi
    · obtain ⟨_, _, rfl⟩ := List.mem_map.mp hi
      rfl
    · simp only [List.mem_cons, List.not_mem_nil, or_false] at hi
      rcases hi with rfl | rfl <;> rfl
  have hrevoked : SettingsStay (Env.offline 1 "token").settings
      (shares ++ [.call ⟨.offline 4 "", .revokeLink 1 1⟩]) := by
    intro i hi
    rcases List.mem_append.mp hi with hi | hi
    · exact hshares i hi
    · obtain rfl := Change.call.inj (List.mem_singleton.mp hi)
      rfl
  have henv : (Env.offline 5 "").settings = (Env.offline 1 "token").settings := rfl
  refine ⟨(granted_iff hshares henv hmac).1.mp ?_, fun hgranted => ?_⟩
  · decide +kernel
  · refine absurd ((granted_iff hrevoked henv hmac).1.mpr hgranted) ?_
    decide +kernel

end Orchestract
