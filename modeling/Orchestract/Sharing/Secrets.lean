import Orchestract.Documents.KeyOwners
import Orchestract.Documents.Places
import Orchestract.Sharing.Exposure

/-!
# Documents that a link does not name

Two worlds that differ in documents of a contract that are not among the chosen ones, in the bytes
stored under their keys and in the id that the next version gets. What the page of a link to the chosen
documents is made of is the same in both, and so is what is read of it.
-/

namespace Orchestract

set_option autoImplicit false

def World.withDocuments (w : World) (documents : Table Document) (nextVersionId : Nat)
    (files : Bucket → String → Option Bytes) : World :=
  ⟨{ w.db with documents := documents, nextVersionId := nextVersionId }, files⟩

/-- A document of the contract that is not among the chosen ones. -/
def Hidden (contractId : Nat) (ids : List Nat) (d : Document) : Prop := d.contractId = contractId ∧ d.id ∉ ids

instance (contractId : Nat) (ids : List Nat) (d : Document) : Decidable (Hidden contractId ids d) :=
  inferInstanceAs (Decidable (d.contractId = contractId ∧ d.id ∉ ids))

/-- A document of the contract that is among them. -/
def Named (contractId : Nat) (ids : List Nat) (d : Document) : Prop := d.contractId = contractId ∧ d.id ∈ ids

instance (contractId : Nat) (ids : List Nat) (d : Document) : Decidable (Named contractId ids d) :=
  inferInstanceAs (Decidable (d.contractId = contractId ∧ d.id ∈ ids))

/-- One document in two worlds: the same one, or two hidden ones in one place. -/
structure Counterpart (contractId : Nat) (ids : List Nat) (d d' : Document) : Prop where
  sameId : d'.id = d.id
  sameContract : d'.contractId = d.contractId
  visible : ¬ Hidden contractId ids d → d' = d

/-- The worlds differ in hidden documents, under the keys of these and in the id of the next version at
most. -/
structure Alike (contractId : Nat) (ids : List Nat) (w w' : World) : Prop where
  others : w' = w.withDocuments w'.db.documents w'.db.nextVersionId w'.files
  documents : List.Forall₂ (Counterpart contractId ids) w.db.documents.rows w'.db.documents.rows
  files : ∀ d ∈ w.db.documents.rows, ¬ Hidden contractId ids d → ∀ bucket key, OwnKey d.id key →
    w'.files bucket key = w.files bucket key

/-- What the page of a link to the chosen documents is made of is the same in both worlds. -/
structure Shown (contractId : Nat) (ids : List Nat) (w w' : World) : Prop where
  links : w'.db.shareLinks = w.db.shareLinks
  connections : w'.db.connections = w.db.connections
  instances : w'.db.instances = w.db.instances
  contract : w'.db.contracts.get contractId = w.db.contracts.get contractId
  documents : w'.db.documents.select (Named contractId ids) = w.db.documents.select (Named contractId ids)
  files : ∀ d ∈ w.db.documents.rows, Named contractId ids d → ∀ bucket key, OwnKey d.id key →
    w'.files bucket key = w.files bucket key

variable {contractId : Nat} {ids : List Nat} {w w' w'' : World} {d d' : Document}

theorem Named.not_hidden (h : Named contractId ids d) : ¬ Hidden contractId ids d := fun hhidden => hhidden.2 h.2

theorem named_congr (hid : d'.id = d.id) (hcontract : d'.contractId = d.contractId) :
    Named contractId ids d' ↔ Named contractId ids d := by
  unfold Named
  rw [hid, hcontract]

theorem counterpart_refl (d : Document) : Counterpart contractId ids d d := ⟨rfl, rfl, fun _ => rfl⟩

/-- Worlds that are alike show the same. -/
theorem Alike.shown (h : Alike contractId ids w w') : Shown contractId ids w w' := by
  have hothers := h.others
  refine ⟨?_, ?_, ?_, ?_, ?_, fun d hd hnamed => h.files d hd hnamed.not_hidden⟩
  · rw [hothers]
    rfl
  · rw [hothers]
    rfl
  · rw [hothers]
    rfl
  · rw [hothers]
    rfl
  · have hselect : ∀ {rows rows' : List Document}, List.Forall₂ (Counterpart contractId ids) rows rows' →
        rows'.filter (fun d => Named contractId ids d) = rows.filter fun d => Named contractId ids d := by
      intro rows rows' hrows
      induction hrows with
      | nil => rfl
      | @cons a b _ _ hab _ ih =>
        have hsame : Named contractId ids b ↔ Named contractId ids a := named_congr hab.sameId hab.sameContract
        rw [List.filter_cons, List.filter_cons, ih, decide_eq_decide.mpr hsame]
        by_cases ha : Named contractId ids a
        · rw [hab.visible ha.not_hidden]
        · simp [ha]
    exact hselect h.documents

/-! ## The same documents -/

theorem Shown.refl (w : World) : Shown contractId ids w w := ⟨rfl, rfl, rfl, rfl, rfl, fun _ _ _ _ _ _ => rfl⟩

theorem Shown.mem (h : Shown contractId ids w w') (hd : d ∈ w.db.documents.rows) (hnamed : Named contractId ids d) :
    d ∈ w'.db.documents.rows := by
  have hselected : d ∈ w.db.documents.select (Named contractId ids) :=
    Table.mem_select_iff.mpr ⟨hd, decide_eq_true hnamed⟩
  rw [← h.documents] at hselected
  exact (Table.mem_select_iff.mp hselected).1

theorem Shown.symm (h : Shown contractId ids w w') : Shown contractId ids w' w := by
  have hdocuments := h.documents.symm
  refine ⟨h.links.symm, h.connections.symm, h.instances.symm, h.contract.symm, hdocuments, ?_⟩
  intro d hd hnamed bucket key hkey
  have hselected : d ∈ w'.db.documents.select (Named contractId ids) :=
    Table.mem_select_iff.mpr ⟨hd, decide_eq_true hnamed⟩
  rw [h.documents] at hselected
  exact (h.files d (Table.mem_select_iff.mp hselected).1 hnamed bucket key hkey).symm

theorem Shown.trans (h : Shown contractId ids w w') (h' : Shown contractId ids w' w'') :
    Shown contractId ids w w'' where
  links := h'.links.trans h.links
  connections := h'.connections.trans h.connections
  instances := h'.instances.trans h.instances
  contract := h'.contract.trans h.contract
  documents := h'.documents.trans h.documents
  files d hd hnamed bucket key hkey :=
    (h'.files d (h.mem hd hnamed) hnamed bucket key hkey).trans (h.files d hd hnamed bucket key hkey)

theorem Shown.get_named (h : Shown contractId ids w w') {id : Nat} (hd : w.db.documents.get id = some d)
    (hnamed : Named contractId ids d) : w'.db.documents.get id = some d := by
  obtain ⟨hmem, hid⟩ := Table.get_eq_some_iff.mp hd
  exact Table.get_eq_some_iff.mpr ⟨h.mem hmem hnamed, hid⟩

/-! ## What is read -/

theorem agree_require_of_get {α : Type} [Row α] [Stored α] {what : String} {id : Nat}
    (h : (Stored.table w'.db : Table α).get id = (Stored.table w.db).get id) :
    Read.Agree w w' (require what id : Query α) := by
  unfold Read.Agree
  rw [require_eq, require_eq, h]

theorem Shown.agree_contract (h : Shown contractId ids w w') : Read.Agree w w' (ContractService.get contractId) :=
  agree_require_of_get h.contract

theorem Shown.agree_document (h : Shown contractId ids w w') {id : Nat} (hd : w.db.documents.get id = some d)
    (hnamed : Named contractId ids d) : Read.Agree w w' (DocumentService.get id) :=
  agree_require_of_get ((h.get_named hd hnamed).trans hd.symm)

theorem Shown.agree_getActiveLink (h : Shown contractId ids w w') (env : Env) (token : String) :
    Read.Agree w w' (SharingService.getActiveLink env token) := by
  have hlinks : (Stored.table w.db : Table ShareLink) = Stored.table w'.db := h.links.symm
  exact Read.agree_bind (agree_oneOrNone (by rw [hlinks])) fun _ _ _ => rfl

theorem Shown.agree_downloadVersion (h : Shown contractId ids w w') (env : Env) {v : DocumentVersion}
    (hd : d ∈ w.db.documents.rows) (hnamed : Named contractId ids d) (hkey : OwnKey d.id v.storageKey) :
    Read.Agree w w' (DocumentService.downloadVersion env v) := by
  have hconnections : (Stored.table w'.db : Table StorageConnection) = Stored.table w.db := h.connections
  have hconnection : Read.Agree w w' (StorageService.get v.storageConnectionId) :=
    agree_require_of_get (by rw [hconnections])
  refine Read.agree_bind hconnection fun c _ _ => Read.agree_bind ?_ fun bucket _ _ => ?_
  · exact buildFileStorage_congr rfl rfl rfl _ w' w
  · unfold Read.Agree getObject
    rw [h.files d hd hnamed bucket _ hkey]

/-- An upload to a document that the link names goes to one place. -/
theorem Shown.agree_uploadPlace (h : Shown contractId ids w w') (env : Env) {documentId : Nat}
    (hd : w.db.documents.get documentId = some d) (hnamed : Named contractId ids d) :
    Read.Agree w w' (DocumentService.uploadPlace env documentId) := by
  have hconnections : (Stored.table w.db : Table StorageConnection) = Stored.table w'.db := h.connections.symm
  have htarget : Read.Agree w w' (DocumentService.uploadTarget documentId) := by
    refine Read.agree_bind (h.agree_document hd hnamed) fun document hdocument _ => ?_
    obtain rfl := Option.some.inj (hd.symm.trans ((require_ok_iff _ _ _ _).mp hdocument))
    refine Read.agree_bind (hnamed.1 ▸ h.agree_contract) fun c _ _ => ?_
    exact Read.agree_bind (agree_oneOrNone (by rw [hconnections])) fun _ _ _ => Read.agree_bind rfl fun _ _ _ => rfl
  refine Read.agree_bind htarget fun _ _ _ => Read.agree_bind ?_ fun _ _ _ => rfl
  exact buildFileStorage_congr rfl rfl rfl _ w' w

/-! ## What the link shows -/

/-- The link names the chosen documents of the contract. -/
structure Names (contractId : Nat) (ids : List Nat) (l : ShareLink) : Prop where
  contract : l.contractId = contractId
  scope : l.scope = .documents
  documents : l.documents = ids

theorem Names.allowed {l : ShareLink} (h : Names contractId ids l) {documentId : Nat}
    (hallows : l.allowsDocument documentId = true) : documentId ∈ ids := by
  rcases ShareLink.allowsDocument_iff.mp hallows with hscope | hmem
  · rw [h.scope] at hscope
    cases hscope
  · exact h.documents ▸ hmem

theorem Shown.agree_resolveSharedDocuments (h : Shown contractId ids w w') {l : ShareLink}
    (hl : Names contractId ids l) : Read.Agree w w' (SharingService.resolveSharedDocuments l) := by
  have hallowed : l.allowedDocumentIds = some ids := by
    simp [ShareLink.allowedDocumentIds, hl.scope, hl.documents]
  have hlisted : ∀ w : World, (w.db.documents.rows.filter fun d => decide (d.contractId = contractId)).filter
      (fun d => decide (d.id ∈ ids)) = w.db.documents.select (Named contractId ids) := by
    intro w
    rw [List.filter_filter]
    refine List.filter_congr fun d _ => ?_
    rw [Bool.and_comm, ← Bool.decide_and]
    rfl
  refine Read.agree_bind (hl.contract ▸ h.agree_contract) fun c hc _ => ?_
  have hid : c.id = contractId :=
    (Table.get_eq_some_iff.mp ((require_ok_iff _ _ _ _).mp hc)).2.trans hl.contract
  rw [hallowed, hid]
  unfold Read.Agree
  change Except.ok (c, (w.db.documents.rows.filter _).filter _) =
    Except.ok (c, (w'.db.documents.rows.filter _).filter _)
  rw [hlisted, hlisted, h.documents]

theorem Shown.agree_getSharedVersion (h : Shown contractId ids w w') (hkeys : OwnKeys w) {l : ShareLink}
    (hl : Names contractId ids l) (env : Env) (documentId versionId : Nat) :
    Read.Agree w w' (SharingService.getSharedVersion env l documentId versionId) := by
  refine Read.agree_bind rfl fun _ hallows _ => ?_
  have hid : documentId ∈ ids := hl.allowed (by simpa using hallows)
  have hnamed : ∀ {w : World} {d : Document},
      (w.db.documents.get documentId).filter (fun d => d.contractId = l.contractId) = some d →
        w.db.documents.get documentId = some d ∧ Named contractId ids d := by
    intro w d hfound
    obtain ⟨hd, hcontract⟩ := Option.filter_eq_some_iff.mp hfound
    have hdid : d.id = documentId := (Table.get_eq_some_iff.mp hd).2
    exact ⟨hd, (of_decide_eq_true hcontract).trans hl.contract, hdid.symm ▸ hid⟩
  have hfilter : ∀ {w w' : World}, Shown contractId ids w w' → ∀ d,
      (w.db.documents.get documentId).filter (fun d => d.contractId = l.contractId) = some d →
        (w'.db.documents.get documentId).filter (fun d => d.contractId = l.contractId) = some d := by
    intro w w' hshown d hfound
    obtain ⟨hd, hd'⟩ := hnamed hfound
    exact Option.filter_eq_some_iff.mpr ⟨hshown.get_named hd hd', (Option.filter_eq_some_iff.mp hfound).2⟩
  have hsame : (w.db.documents.get documentId).filter (fun d => d.contractId = l.contractId) =
      (w'.db.documents.get documentId).filter fun d => d.contractId = l.contractId :=
    Option.ext fun d => ⟨hfilter h d, hfilter h.symm d⟩
  have hfound : ∀ (f : Option Document → Query (DocumentVersion × Bytes)) (w : World),
      ((find documentId : Query (Option Document)) >>= f) w = f (w.db.documents.get documentId) w := fun _ _ => rfl
  unfold Read.Agree
  rw [hfound, hfound, hsame]
  refine Read.agree_bind rfl fun d hd _ => Read.agree_bind rfl fun v hv _ => Read.agree_bind ?_ fun _ _ _ => rfl
  rw [lift_query_ok_iff, orRaise_ok_iff] at hd hv
  obtain ⟨hd, hd'⟩ := hnamed (hsame.trans hd)
  have hmem := (Table.get_eq_some_iff.mp hd).1
  exact h.agree_downloadVersion env hmem hd' (hkeys d hmem v (List.mem_of_find?_eq_some hv))

end Orchestract
