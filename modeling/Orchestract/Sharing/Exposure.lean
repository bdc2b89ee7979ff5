import Orchestract.Documents.Versions
import Orchestract.Sharing.Links

/-!
# What a share link exposes

The list of the documents of a link and the lookup of one version of one document are written
apart. Whatever has happened, they agree, and a link to chosen documents exposes just these.
-/

namespace Orchestract

set_option autoImplicit false

/-- The settings are those the process was started with. -/
def SettingsStay (settings : Settings) (changes : List Change) : Prop :=
  ∀ i, Change.call i ∈ changes → i.env.settings = settings

/-- These are the documents that the page of the link lists. -/
def Lists (w : World) (l : ShareLink) (documents : List Document) : Prop :=
  ∃ contract, SharingService.resolveSharedDocuments l w = .ok (contract, documents)

/-- What the link lists is what it serves, now and as far as it goes later. -/
def ExactlyServed (settings : Settings) (s : System) (l : ShareLink) : Prop :=
  ∃ documents, Lists s.world l documents ∧
    (∀ env : Env, env.settings = settings → ∀ documentId versionId,
      (∃ served, SharingService.getSharedVersion env l documentId versionId s.world = .ok served) ↔
        ∃ d ∈ documents, d.id = documentId ∧ ∃ v ∈ d.versions, v.id = versionId) ∧
    (∀ d ∈ documents, d.contractId = l.contractId) ∧
    (l.scope = .documents → documents ≠ [] ∧ (documents.map Document.id).Nodup) ∧
    (l.scope = .contract → ContractService.documentsOf l.contractId s.world = .ok documents) ∧
    ∀ more, ∃ l' documents', (Runs.run System.next s more).world.db.shareLinks.get l.id = some l' ∧
      Lists (Runs.run System.next s more).world l' documents' ∧
      (l.scope = .documents → ∀ d' ∈ documents', ∃ d ∈ documents, d.id = d'.id)

variable {w : World} {settings : Settings}

/-! ## The list -/

namespace ShareLink

theorem allowsDocument_iff {l : ShareLink} {documentId : Nat} :
    l.allowsDocument documentId = true ↔ l.scope = .contract ∨ documentId ∈ l.documents := by
  unfold allowsDocument allowedDocumentIds
  by_cases h : l.scope = .contract
  · simp [h]
  · simp [h]

/-- The documents of the contract that the link allows. -/
def listed (l : ShareLink) (w : World) : List Document :=
  (w.db.documents.select fun d => d.contractId = l.contractId).filter fun d => l.allowsDocument d.id

theorem mem_listed_iff {l : ShareLink} {d : Document} :
    d ∈ l.listed w ↔ d ∈ w.db.documents.rows ∧ d.contractId = l.contractId ∧ l.allowsDocument d.id = true := by
  unfold listed
  rw [List.mem_filter, Table.mem_select_iff, and_assoc, decide_eq_true_iff]

end ShareLink

theorem resolveSharedDocuments_ok_iff {l : ShareLink} {c : Contract} {documents : List Document} :
    SharingService.resolveSharedDocuments l w = .ok (c, documents) ↔
      w.db.contracts.get l.contractId = some c ∧ documents = l.listed w := by
  have hlisted : ∀ {c' : Contract}, w.db.contracts.get l.contractId = some c' →
      (SharingService.resolveSharedDocuments l w = .ok (c, documents) ↔ c' = c ∧ documents = l.listed w) := by
    intro c' hc
    obtain ⟨_, hid⟩ := Table.get_eq_some_iff.mp hc
    have hid' : c'.id = l.contractId := hid
    have hget : ContractService.get l.contractId w = .ok c' := (require_ok_iff _ _ _ _).mpr hc
    unfold SharingService.resolveSharedDocuments ShareLink.listed ShareLink.allowsDocument
      ContractService.documentsOf
    rw [Read.bind_ok hget, Read.bind_ok (select_apply _ w), hid']
    cases l.allowedDocumentIds with
    | none => simp [Stored.table, eq_comm]
    | some ids => simp [Stored.table, eq_comm]
  constructor
  · intro h
    obtain ⟨c', hc, _⟩ := (Read.bind_ok_iff _ _ _ _).mp h
    have hc := (require_ok_iff _ _ _ _).mp hc
    obtain ⟨rfl, hdocuments⟩ := (hlisted hc).mp h
    exact ⟨hc, hdocuments⟩
  · rintro ⟨hc, hdocuments⟩
    exact (hlisted hc).mpr ⟨rfl, hdocuments⟩

theorem lists_iff {l : ShareLink} {documents : List Document} :
    Lists w l documents ↔ (w.db.contracts.get l.contractId).isSome = true ∧ documents = l.listed w := by
  unfold Lists
  simp only [resolveSharedDocuments_ok_iff, exists_and_right, Option.isSome_iff_exists]

/-! ## The lookup -/

/-- The version of an allowed document of the contract, with its bytes. -/
theorem getSharedVersion_eq_ok_iff {env : Env} {l : ShareLink} {documentId versionId : Nat} {v : DocumentVersion}
    {data : Bytes} : SharingService.getSharedVersion env l documentId versionId w = .ok (v, data) ↔
      ∃ d ∈ l.listed w, d.id = documentId ∧ d.versions.find? (fun v => v.id = versionId) = some v ∧
        DocumentService.downloadVersion env v w = .ok data := by
  unfold SharingService.getSharedVersion
  simp only [Read.bind_ok_iff, lift_query_ok_iff, raiseIf_ok_iff, find_apply, Except.ok.injEq, orRaise_ok_iff,
    Read.pure_apply, Option.filter_eq_some_iff, Prod.mk.injEq]
  constructor
  · rintro ⟨_, hallows, _, rfl, d, ⟨hd, hcontract⟩, _, hv, _, hdata, rfl, rfl⟩
    obtain ⟨hmem, hid⟩ := Table.get_eq_some_iff.mp hd
    have hallows' : l.allowsDocument documentId = true := by simpa using hallows
    have hdid : d.id = documentId := hid
    refine ⟨d, ShareLink.mem_listed_iff.mpr ⟨hmem, of_decide_eq_true hcontract, ?_⟩, hid, hv, hdata⟩
    rw [hdid]
    exact hallows'
  · rintro ⟨d, hd, rfl, hv, hdata⟩
    obtain ⟨hmem, hcontract, hallows⟩ := ShareLink.mem_listed_iff.mp hd
    refine ⟨(), by simpa using hallows, _, rfl, d, ⟨?_, decide_eq_true hcontract⟩, v, hv, data, hdata, rfl, rfl⟩
    exact Table.get_eq_some_iff.mpr ⟨hmem, rfl⟩

/-- A version is served when it is one of an allowed document of the contract, and can be downloaded. -/
theorem getSharedVersion_ok_iff {env : Env} {l : ShareLink} {documentId versionId : Nat} :
    (∃ served, SharingService.getSharedVersion env l documentId versionId w = .ok served) ↔
      ∃ d ∈ l.listed w, d.id = documentId ∧ ∃ v, d.versions.find? (fun v => v.id = versionId) = some v ∧
        ∃ data, DocumentService.downloadVersion env v w = .ok data := by
  constructor
  · rintro ⟨⟨v, data⟩, h⟩
    obtain ⟨d, hd, hid, hv, hdata⟩ := getSharedVersion_eq_ok_iff.mp h
    exact ⟨d, hd, hid, v, hv, data, hdata⟩
  · rintro ⟨d, hd, hid, v, hv, data, hdata⟩
    exact ⟨(v, data), getSharedVersion_eq_ok_iff.mpr ⟨d, hd, hid, hv, hdata⟩⟩

/-- Every version of every document can be downloaded. -/
def AllServed (settings : Settings) (w : World) : Prop := ∃ uploads, Kept settings w uploads

theorem exists_of_forall₂ {α β : Type} {R : α → β → Prop} {as : List α} {bs : List β} (h : List.Forall₂ R as bs)
    {a : α} (ha : a ∈ as) : ∃ b, R a b := by
  induction h with
  | nil => cases ha
  | cons hr _ ih =>
    rcases List.mem_cons.mp ha with rfl | ha
    · exact ⟨_, hr⟩
    · exact ih ha

theorem allServed_download (h : AllServed settings w) {d : Document} (hd : d ∈ w.db.documents.rows)
    {v : DocumentVersion} (hv : v ∈ d.versions) {env : Env} (henv : env.settings = settings) :
    ∃ data, DocumentService.downloadVersion env v w = .ok data := by
  obtain ⟨uploads, hkept⟩ := h
  obtain ⟨u, hplaced⟩ := exists_of_forall₂ (hkept.versions d hd) hv
  exact ⟨u.content, (served_of_placed hplaced).download env henv⟩

/-- A version is served when its document is listed. -/
theorem served_iff (h : AllServed settings w) {env : Env} (henv : env.settings = settings) {l : ShareLink}
    {documentId versionId : Nat} :
    (∃ served, SharingService.getSharedVersion env l documentId versionId w = .ok served) ↔
      ∃ d ∈ l.listed w, d.id = documentId ∧ ∃ v ∈ d.versions, v.id = versionId := by
  rw [getSharedVersion_ok_iff]
  constructor
  · rintro ⟨d, hd, hid, v, hv, _⟩
    exact ⟨d, hd, hid, v, List.mem_of_find?_eq_some hv, by simpa using List.find?_some hv⟩
  · rintro ⟨d, hd, hid, v, hv, hvid⟩
    obtain ⟨found, hfound⟩ : ∃ found, d.versions.find? (fun v => v.id = versionId) = some found := by
      rw [← Option.isSome_iff_exists, List.find?_isSome]
      exact ⟨v, hv, decide_eq_true hvid⟩
    have hmem : d ∈ w.db.documents.rows := (ShareLink.mem_listed_iff.mp hd).1
    exact ⟨d, hd, hid, found, hfound, allServed_download h hmem (List.mem_of_find?_eq_some hfound) henv⟩

/-! ## Runs -/

theorem allServed_after (files : Bucket → String → Option Bytes) {changes : List Change}
    (h : SettingsStay settings changes) : AllServed settings (System.after files changes).world :=
  ⟨_, kept_after files h⟩

theorem listed_documents_iff {l : ShareLink} (h : l.Issued w) (hscope : l.scope = .documents) {id : Nat} :
    (∃ d ∈ l.listed w, d.id = id) ↔ id ∈ l.documents := by
  constructor
  · rintro ⟨d, hd, rfl⟩
    obtain ⟨_, _, hallows⟩ := ShareLink.mem_listed_iff.mp hd
    exact (ShareLink.allowsDocument_iff.mp hallows).resolve_left (by simp [hscope])
  · intro hid
    obtain ⟨d, hd, hown⟩ := h.own id hid
    obtain ⟨hmem, rfl⟩ := Table.get_eq_some_iff.mp hd
    exact ⟨d, ShareLink.mem_listed_iff.mpr ⟨hmem, hown, ShareLink.allowsDocument_iff.mpr (Or.inr hid)⟩, rfl⟩

theorem refsExist_shareLink {l : ShareLink} (h : refsExist l w.db = true) :
    (w.db.contracts.get l.contractId).isSome = true := by
  simp only [refsExist, Stored.refs, List.all_cons, Bool.and_eq_true] at h
  exact h.1

/-- Whatever has happened, every link exposes the same by either path, and no more later. -/
theorem exactlyServed_after (settings : Settings) (files : Bucket → String → Option Bytes)
    (changes : List Change) (h : SettingsStay settings changes) :
    ∀ l ∈ (System.after files changes).world.db.shareLinks.rows,
      ExactlyServed settings (System.after files changes) l := by
  intro l hl
  have hissued := issued_after files changes
  have hcontract := fun changes (l : ShareLink) (hl : l ∈ (System.after files changes).world.db.shareLinks.rows) =>
    refsExist_shareLink ((sound_after files changes).refsExist hl)
  refine ⟨l.listed _, lists_iff.mpr ⟨hcontract changes l hl, rfl⟩, fun env henv documentId versionId => ?_,
    fun d hd => (ShareLink.mem_listed_iff.mp hd).2.1, fun hscope => ⟨?_, ?_⟩, fun hscope => ?_, fun more => ?_⟩
  · exact served_iff (allServed_after files h) henv
  · obtain ⟨id, hid⟩ := List.exists_mem_of_ne_nil _ ((hissued l hl).nonempty hscope)
    obtain ⟨d, hd, _⟩ := (listed_documents_iff (hissued l hl) hscope).mpr hid
    exact List.ne_nil_of_mem hd
  · exact List.Sublist.nodup ((List.filter_sublist.trans List.filter_sublist).map _)
      (System.after files changes).world.db.documents.nodup
  · have hall : ∀ d, l.allowsDocument d = true := fun d => ShareLink.allowsDocument_iff.mpr (Or.inl hscope)
    unfold ShareLink.listed
    simp only [hall, List.filter_true]
    rfl
  · obtain ⟨l', hl', hcontinues⟩ := linksContinue_run (System.after files changes) more l.id l
      (Table.get_eq_some_iff.mpr ⟨hl, rfl⟩)
    have hrun : Runs.run System.next (System.after files changes) more = System.after files (changes ++ more) :=
      (Runs.run_append _ _ _ _).symm
    rw [hrun] at hl' ⊢
    have hmem := (Table.get_eq_some_iff.mp hl').1
    refine ⟨l', l'.listed _, hl', lists_iff.mpr ⟨hcontract _ l' hmem, rfl⟩, fun hscope d' hd' => ?_⟩
    have hscope' : l'.scope = .documents := hcontinues.scope.trans hscope
    have hid := (listed_documents_iff (issued_after files (changes ++ more) l' hmem) hscope').mp ⟨d', hd', rfl⟩
    exact (listed_documents_iff (hissued l hl) hscope).mpr (hcontinues.documents ▸ hid)

/-- After the drafts Alice shares a list with a document twice and one that is not hers, then all. -/
def leaseLinks : List Change := leaseDrafts.map .call ++ [
  .call ⟨.offline 2 "first", .createLink 1 .documents true 24 "Alice" [1, 1, 7] none⟩,
  .call ⟨.offline 3 "second", .createLink 1 .contract false 24 "Alice" [] (some "secret")⟩,
  .visit (.offline 4 "") "first"]

theorem exactlyServed_leaseLinks :
    (∀ l ∈ (System.after (fun _ _ => none) leaseLinks).world.db.shareLinks.rows,
      ExactlyServed (Env.offline 1 "token").settings (System.after (fun _ _ => none) leaseLinks) l) ∧
      (System.after (fun _ _ => none) leaseLinks).world.db.shareLinks.rows.map ShareLink.documents =
        [[1], []] := by
  have hsettings : SettingsStay (Env.offline 1 "token").settings leaseLinks := by
    intro i hi
    rcases List.mem_append.mp hi with hi | hi
    · obtain ⟨_, hdraft, heq⟩ := List.mem_map.mp hi
      obtain rfl := Change.call.inj heq
      obtain ⟨_, _, rfl⟩ := List.mem_map.mp hdraft
      rfl
    · simp only [List.mem_cons, Change.call.injEq, List.not_mem_nil, or_false, reduceCtorEq] at hi
      rcases hi with rfl | rfl <;> rfl
  exact ⟨exactlyServed_after _ (fun _ _ => none) leaseLinks hsettings, by decide +kernel⟩

end Orchestract
