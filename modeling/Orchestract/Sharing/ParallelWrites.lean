import Orchestract.Sharing.Secrets

/-!
# Writes in two worlds

What the services write elsewhere is not shown by a link to chosen documents of a contract. What they
write to these documents and to the contract goes into both worlds alike, where it is made of the same
and new versions get the same ids.
-/

namespace Orchestract

set_option autoImplicit false

open AIService (documentSummary contractSummary summarizeDocument summarizeContract documentContents)
open DocumentService (storageKey taken newVersion)

variable {contractId : Nat} {ids : List Nat} {w w' : World} {d : Document} {env : Env} {documentId : Nat}
  {organization : Organization}

/-! ## Elsewhere -/

/-- Another document is written, with the files. -/
theorem shown_update {r : Document} (hr : r ∈ w.db.documents.rows) (hid : d.id = r.id)
    (hcontract : d.contractId = r.contractId) (hnot : ¬ Named contractId ids r) {t : Table Document}
    (ht : w.db.documents.update d = some t) {files : Bucket → String → Option Bytes}
    (hfiles : ∀ a ∈ w.db.documents.rows, Named contractId ids a → ∀ bucket key, OwnKey a.id key →
      files bucket key = w.files bucket key) (n : Nat) :
    Shown contractId ids w ⟨{ w.db with documents := t, nextVersionId := n }, files⟩ := by
  refine ⟨rfl, rfl, rfl, rfl, Table.select_update ht (fun a ha haid => ?_) ?_, hfiles⟩
  · obtain rfl := Table.eq_of_id ha hr (haid.trans hid)
    exact decide_eq_false hnot
  · exact decide_eq_false fun hnamed => hnot ((named_congr hid hcontract).mp hnamed)

/-- Its bytes are put under a key of its own. -/
theorem files_elsewhere (hd : d ∈ w.db.documents.rows) (hnot : ¬ Named contractId ids d) (contract : Contract)
    (bucket : Bucket) (filename : String) (content : Bytes) : ∀ a ∈ w.db.documents.rows, Named contractId ids a →
      ∀ b key, OwnKey a.id key →
        putFile w.files bucket (storageKey contract d filename) content b key = w.files b key := by
  intro a ha hnamed b key hkey
  have hother : ¬ (b = bucket ∧ key = storageKey contract d filename) := by
    rintro ⟨_, rfl⟩
    have hid : a.id = d.id := hkey.unique (ownKey_storageKey contract d filename)
    exact hnot (Table.eq_of_id ha hd hid ▸ hnamed)
  unfold putFile
  rw [if_neg hother]

theorem shown_upload (hnot : ∀ d, w.db.documents.get documentId = some d → ¬ Named contractId ids d)
    (u : DocumentService.Upload) (commits : Bool) :
    Shown contractId ids w (Operation.upload env documentId u commits w).2 := by
  rcases DocumentService.upload_cases env documentId u commits w with
    ⟨e, he⟩ | ⟨t, _, ⟨e, he⟩ | ⟨documents, hdocuments, hok⟩⟩
  · rw [he]
    exact Shown.refl w
  · rw [he]
    have hmem := (Table.get_eq_some_iff.mp t.document_get).1
    exact ⟨rfl, rfl, rfl, rfl, rfl, files_elsewhere hmem (hnot _ t.document_get) _ _ _ _⟩
  · rw [hok]
    have hmem := (Table.get_eq_some_iff.mp t.document_get).1
    have hnamed := hnot _ t.document_get
    exact shown_update (d := t.document.addVersion (t.version u) env.now) hmem rfl rfl hnamed hdocuments
      (files_elsewhere hmem hnamed _ _ _ _) _

/-- What is stored of an answer is not shown. -/
theorem shown_stored {α : Type} (r : Query String) {m : String → UnitOfWork α}
    (h : ∀ summary a w', m summary w = .ok (a, w') → Shown contractId ids w w') :
    Shown contractId ids w ((liftM r >>= fun summary => liftM (m summary) : Action α) w).2 := by
  rcases Program.after_read r (fun summary => liftM (m summary)) w with hsame | ⟨summary, _, hrest⟩
  · rw [hsame]
    exact Shown.refl w
  · rw [hrest]
    rcases Program.work_state (m summary) w with ⟨a, hok⟩ | hsame
    · exact h summary a _ hok
    · rw [hsame]
      exact Shown.refl w

theorem shown_summarizeDocument (hnot : ∀ d, w.db.documents.get documentId = some d → ¬ Named contractId ids d) :
    Shown contractId ids w (summarizeDocument env documentId organization w).2 := by
  refine shown_stored (documentSummary env documentId organization) fun summary d w' hok => ?_
  obtain ⟨r, hr, hmethod, hsave⟩ := (change_ok_iff _ _ _ _ _ _).mp hok
  obtain rfl := Except.ok.inj hmethod
  obtain ⟨_, t, ht, rfl⟩ := (save_ok_iff _ _ _).mp hsave
  exact shown_update (d := r.setSummary summary env.now) (Table.get_eq_some_iff.mp hr).1 rfl rfl (hnot r hr) ht
    (fun _ _ _ _ _ _ => rfl) _

theorem shown_summarizeContract {other : Nat} (hne : other ≠ contractId) :
    Shown contractId ids w (summarizeContract env other organization w).2 := by
  refine shown_stored (contractSummary env other organization) fun summary c w' hok => ?_
  obtain ⟨r, hr, hmethod, hsave⟩ := (change_ok_iff _ _ _ _ _ _).mp hok
  obtain rfl := Except.ok.inj hmethod
  obtain ⟨_, t, ht, rfl⟩ := (save_ok_iff _ _ _).mp hsave
  refine ⟨rfl, rfl, rfl, ?_, rfl, fun _ _ _ _ _ _ => rfl⟩
  have hid : r.id = other := (Table.get_eq_some_iff.mp hr).2
  have hrow : contractId ≠ Row.id (r.setSummary summary env.now) := fun heq => hne (hid.symm.trans heq.symm)
  exact (Table.get_update ht contractId).trans (if_neg hrow)

/-! ## What is shown -/

theorem Shown.parallel_change {α : Type} [Row α] [Stored α] {what : String} {id : Nat}
    {method : α → Except DomainError α} {r a : α} {t t' : World} (hr : (Stored.table w.db).get id = some r)
    (hr' : (Stored.table w'.db).get id = some r) (hmethod : method r = .ok a) (hsave : save a w = .ok ((), t))
    (hsave' : save a w' = .ok ((), t')) (ht : Shown contractId ids t t') :
    Work.Parallel (Shown contractId ids) (change what id method) w w' :=
  Or.inl ⟨a, t, t', (change_ok_iff _ _ _ _ _ _).mpr ⟨r, hr, hmethod, hsave⟩,
    (change_ok_iff _ _ _ _ _ _).mpr ⟨r, hr', hmethod, hsave'⟩, ht⟩

/-- A document that the link names is written in both worlds, with the files. -/
theorem Shown.update (h : Shown contractId ids w w') {r : Document} (hr : r ∈ w.db.documents.rows)
    (hnamed : Named contractId ids r) (hid : d.id = r.id) (hcontract : d.contractId = r.contractId)
    {t t' : Table Document} (ht : w.db.documents.update d = some t) (ht' : w'.db.documents.update d = some t')
    {files files' : Bucket → String → Option Bytes} (hfiles : ∀ a ∈ w.db.documents.rows, Named contractId ids a →
      ∀ bucket key, OwnKey a.id key → files' bucket key = files bucket key) (n n' : Nat) :
    Shown contractId ids ⟨{ w.db with documents := t, nextVersionId := n }, files⟩
      ⟨{ w'.db with documents := t', nextVersionId := n' }, files'⟩ := by
  have hsees : ∀ {w : World}, r ∈ w.db.documents.rows → ∀ a ∈ w.db.documents.rows, Row.id a = Row.id d →
      decide (Named contractId ids d) = decide (Named contractId ids a) := by
    intro w hr a ha haid
    obtain rfl := Table.eq_of_id ha hr (haid.trans hid)
    exact decide_eq_decide.mpr (named_congr hid hcontract)
  refine ⟨h.links, h.connections, h.instances, h.contract, ?_, fun a ha hnamed' bucket key hkey => ?_⟩
  · change t'.select (Named contractId ids) = t.select (Named contractId ids)
    rw [Table.select_overwrite ht (hsees hr), Table.select_overwrite ht' (hsees (h.mem hr hnamed)), h.documents]
  · rcases Table.mem_update ht ha with rfl | ⟨ha, _⟩
    · exact hfiles r hr hnamed bucket key (hid ▸ hkey)
    · exact hfiles a ha hnamed' bucket key hkey

/-- Documents have no unique keys. -/
theorem update_document (t : Table Document) (d : Document) : ∃ t', t.update d = some t' :=
  Table.update_isSome_iff.mpr fun _ _ _ => List.disjoint_nil_right _

theorem Shown.setDocumentSummary (h : Shown contractId ids w w') (hs : Sound w) (hs' : Sound w')
    (hd : w.db.documents.get documentId = some d) (hnamed : Named contractId ids d) (summary : String) :
    Work.Parallel (Shown contractId ids) (DocumentService.setSummary env documentId summary) w w' := by
  have hmem := (Table.get_eq_some_iff.mp hd).1
  obtain ⟨t, ht⟩ := update_document w.db.documents (d.setSummary summary env.now)
  obtain ⟨t', ht'⟩ := update_document w'.db.documents (d.setSummary summary env.now)
  have hrefs : refsExist d w.db = true := hs.refsExist hmem
  have hrefs' : refsExist d w'.db = true := hs'.refsExist (h.mem hmem hnamed)
  have hsaved : ∀ {w : World} {t : Table Document}, refsExist d w.db = true →
      w.db.documents.update (d.setSummary summary env.now) = some t →
        save (d.setSummary summary env.now) w = .ok ((), { w with db := { w.db with documents := t } }) :=
    fun hrefs ht => (save_ok_iff _ _ _).mpr ⟨hrefs, _, ht, rfl⟩
  exact Shown.parallel_change hd (h.get_named hd hnamed) rfl (hsaved hrefs ht) (hsaved hrefs' ht')
    (h.update (d := d.setSummary summary env.now) hmem hnamed rfl rfl ht ht' h.files w.db.nextVersionId
      w'.db.nextVersionId)

theorem Shown.setContractSummary (h : Shown contractId ids w w') (hs : Sound w) (hs' : Sound w') {c : Contract}
    (hc : w.db.contracts.get contractId = some c) (summary : String) :
    Work.Parallel (Shown contractId ids) (ContractService.setSummary env contractId summary) w w' := by
  have hc' : w'.db.contracts.get contractId = some c := h.contract.trans hc
  have hsaved : ∀ {w : World}, Sound w → w.db.contracts.get contractId = some c →
      ∃ t, save (c.setSummary summary env.now) w = .ok ((), { w with db := { w.db with contracts := t } }) ∧
        t.get contractId = some (c.setSummary summary env.now) := by
    intro w hs hc
    obtain ⟨hmem, hid⟩ := Table.get_eq_some_iff.mp hc
    have hrefs : refsExist c w.db = true := hs.refsExist hmem
    obtain ⟨w₁, hsave⟩ := save_same_keys (a := c.setSummary summary env.now) hmem rfl rfl hrefs
    obtain ⟨_, t, ht, rfl⟩ := (save_ok_iff _ _ _).mp hsave
    refine ⟨t, hsave, ?_⟩
    obtain rfl := hid
    exact Table.get_of_update (a := c.setSummary summary env.now) ht hc
  obtain ⟨t, hsave, hget⟩ := hsaved hs hc
  obtain ⟨t', hsave', hget'⟩ := hsaved hs' hc'
  exact Shown.parallel_change hc hc' rfl hsave hsave'
    ⟨h.links, h.connections, h.instances, hget'.trans hget.symm, h.documents, h.files⟩

theorem Shown.parallel_markAccessed (h : Shown contractId ids w w') (hs : Sound w) (hs' : Sound w') (env : Env)
    (token : String) : Work.Parallel (Shown contractId ids) (SharingService.markAccessed env token) w w' := by
  have hlinks : (Stored.table w.db : Table ShareLink) = Stored.table w'.db := h.links.symm
  have hfound : Read.Agree w w' (SharingService.getByToken token) := agree_oneOrNone (by rw [hlinks])
  apply Work.parallel_after_read hfound
  intro found hget
  cases found with
  | none => exact Work.parallel_pure () h
  | some l =>
    obtain ⟨hl, _⟩ := SharingService.getByToken_ok hget
    obtain ⟨t, ht, hsave⟩ := save_continues hs hl (l.continues_recordAccess env.now)
    obtain ⟨t', ht', hsave'⟩ := save_continues hs' (h.links ▸ hl) (l.continues_recordAccess env.now)
    have hsame : t' = t := Option.some.inj (ht'.symm.trans (h.links ▸ ht))
    exact Or.inl ⟨(), _, _, hsave, hsave', ⟨hsame, h.connections, h.instances, h.contract, h.documents, h.files⟩⟩

/-- An answer that is the same in both worlds is stored in both. -/
theorem Shown.stored (h : Shown contractId ids w w') {α : Type} {r : Query String} {m : String → UnitOfWork α}
    (hr : (r w).toOption = (r w').toOption)
    (hm : ∀ summary, r w = .ok summary → Work.Parallel (Shown contractId ids) (m summary) w w') :
    Shown contractId ids ((liftM r >>= fun summary => liftM (m summary) : Action α) w).2
      ((liftM r >>= fun summary => liftM (m summary) : Action α) w').2 := by
  rw [Program.bind_apply, Program.bind_apply, Program.read_apply, Program.read_apply]
  cases hw : r w with
  | error e =>
    cases hw' : r w' with
    | error e' => exact h
    | ok summary => simp [hw, hw', Except.toOption] at hr
  | ok summary =>
    cases hw' : r w' with
    | error e' => simp [hw, hw', Except.toOption] at hr
    | ok summary' =>
      obtain rfl : summary = summary' := by simpa [hw, hw', Except.toOption] using hr
      exact (Program.parallel_work (hm summary hw) h).2

/-! ## Uploads -/

/-- The bytes of the documents that the link names are put in both worlds. -/
theorem Shown.files_put (h : Shown contractId ids w w') (bucket : Bucket) (key : String) (content : Bytes) :
    ∀ a ∈ w.db.documents.rows, Named contractId ids a → ∀ b k, OwnKey a.id k →
      putFile w'.files bucket key content b k = putFile w.files bucket key content b k := by
  intro a ha hnamed b k hkey
  unfold putFile
  rw [h.files a ha hnamed b k hkey]

/-- A version of a document that the link names gets the same id in both worlds. -/
theorem Shown.upload (h : Shown contractId ids w w') (hs : Sound w) (hs' : Sound w')
    (hd : w.db.documents.get documentId = some d) (hnamed : Named contractId ids d) {u : DocumentService.Upload}
    {commits : Bool} (hnext : commits = true → taken env documentId u.filename w = true →
      w'.db.nextVersionId = w.db.nextVersionId) :
    Shown contractId ids (Operation.upload env documentId u commits w).2
      (Operation.upload env documentId u commits w').2 := by
  have hplace := h.agree_uploadPlace env hd hnamed
  have htaken : taken env documentId u.filename w' = taken env documentId u.filename w := by
    unfold taken
    rw [show DocumentService.uploadPlace env documentId w = DocumentService.uploadPlace env documentId w' from hplace]
  cases hw : taken env documentId u.filename w with
  | false =>
    rw [DocumentService.upload_refused hw, DocumentService.upload_refused (htaken.trans hw)]
    exact h
  | true =>
    obtain ⟨d₁, contract, connection, bucket, hput, hrolledBack, hcommitted⟩ :=
      DocumentService.upload_taken commits hw fun _ hr => hs.refsExist hr
    obtain ⟨d₂, contract', connection', bucket', hput', hrolledBack', hcommitted'⟩ :=
      DocumentService.upload_taken commits (htaken.trans hw) fun _ hr => hs'.refsExist hr
    obtain ⟨rfl, rfl, rfl, rfl⟩ : d₁ = d₂ ∧ contract = contract' ∧ connection = connection' ∧ bucket = bucket' := by
      simpa using Except.ok.inj (hput.symm.trans (hplace.trans hput'))
    obtain ⟨hd₁, _⟩ := DocumentService.uploadTarget_iff.mp (DocumentService.uploadPlace_iff.mp hput).1
    obtain rfl := Option.some.inj (hd.symm.trans hd₁)
    have hmem := (Table.get_eq_some_iff.mp hd).1
    have hfiles := h.files_put bucket (storageKey contract d u.filename) u.content
    cases commits with
    | false =>
      rw [hrolledBack rfl, hrolledBack' rfl]
      exact ⟨h.links, h.connections, h.instances, h.contract, h.documents, hfiles⟩
    | true =>
      obtain ⟨t, ht, hworld⟩ := hcommitted rfl
      obtain ⟨t', ht', hworld'⟩ := hcommitted' rfl
      rw [hnext rfl hw] at ht'
      rw [hworld, hworld']
      exact h.update (d := d.addVersion (newVersion env w.db.nextVersionId d connection.id
        (storageKey contract d u.filename) u) env.now) hmem hnamed rfl rfl ht ht' hfiles _ _

/-! ## Summaries -/

/-- What there is to tell of a document: its name, and of its latest version the type and, where it can be
read, the contents. -/
def Document.latest (env : Env) (w : World) (d : Document) : String × Option (String × Option Bytes) :=
  (d.name, d.latestVersion.map fun v => (v.contentType,
    if v.contentType ∈ summarizableMimeTypes then (DocumentService.downloadVersion env v w).toOption else none))

/-- The same is told of the documents of the contract in both worlds. -/
def SameLatest (env : Env) (contractId : Nat) (w w' : World) : Prop :=
  (w.db.documents.select (fun d => d.contractId = contractId)).map (Document.latest env w) =
    (w'.db.documents.select (fun d => d.contractId = contractId)).map (Document.latest env w')

instance (env : Env) (contractId : Nat) (w w' : World) : Decidable (SameLatest env contractId w w') := by
  unfold SameLatest
  infer_instance

/-- Two reads succeed alike when their parts do. -/
theorem toOption_bind_congr {α β : Type} {r r' : Query α} {f f' : α → Query β}
    (hr : (r w).toOption = (r' w').toOption)
    (hf : ∀ a, r w = .ok a → (f a w).toOption = (f' a w').toOption) :
    ((r >>= f) w).toOption = ((r' >>= f') w').toOption := by
  change ((r w) >>= fun a => f a w).toOption = ((r' w') >>= fun a => f' a w').toOption
  cases hw : r w with
  | error e =>
    cases hw' : r' w' with
    | error e' => rfl
    | ok a => simp [hw, hw', Except.toOption] at hr
  | ok a =>
    cases hw' : r' w' with
    | error e' => simp [hw, hw', Except.toOption] at hr
    | ok a' =>
      obtain rfl : a = a' := by simpa [hw, hw', Except.toOption] using hr
      exact hf a hw

/-- The model is sent no more than this about a document. -/
theorem documentContents_latest {d' : Document} (h : d.latest env w = d'.latest env w') :
    (documentContents env d w).toOption = (documentContents env d' w').toOption := by
  obtain ⟨hname, hversion⟩ := Prod.mk.inj h
  unfold documentContents
  rw [hname]
  cases hv : d.latestVersion with
  | none =>
    cases hv' : d'.latestVersion with
    | none => rfl
    | some v' => simp [hv, hv'] at hversion
  | some v =>
    cases hv' : d'.latestVersion with
    | none => simp [hv, hv'] at hversion
    | some v' =>
      simp only [hv, hv', Option.map_some, Option.some.injEq, Prod.mk.injEq] at hversion
      obtain ⟨htype, hcontent⟩ := hversion
      dsimp only
      rw [htype] at hcontent ⊢
      by_cases hsummarizable : v'.contentType ∈ summarizableMimeTypes
      · rw [if_neg (not_not.mpr hsummarizable), if_neg (not_not.mpr hsummarizable)]
        rw [if_pos hsummarizable, if_pos hsummarizable] at hcontent
        exact toOption_bind_congr hcontent fun _ _ => rfl
      · rw [if_pos hsummarizable, if_pos hsummarizable]
        rfl

theorem contents_latest {documents documents' : List Document}
    (h : documents.map (Document.latest env w) = documents'.map (Document.latest env w')) :
    ((documents.mapM (documentContents env) : Query (List (List String))) w).toOption =
      ((documents'.mapM (documentContents env) : Query (List (List String))) w').toOption := by
  induction documents generalizing documents' with
  | nil =>
    obtain rfl := List.map_eq_nil_iff.mp h.symm
    rfl
  | cons d documents ih =>
    obtain ⟨d', documents', rfl⟩ : ∃ d' rest, documents' = d' :: rest := by
      cases documents' with
      | nil => cases h
      | cons d' rest => exact ⟨d', rest, rfl⟩
    obtain ⟨hd, hrest⟩ := List.cons.inj h
    rw [List.mapM_cons, List.mapM_cons]
    exact toOption_bind_congr (documentContents_latest hd) fun _ _ =>
      toOption_bind_congr (ih hrest) fun _ _ => rfl

theorem Shown.agree_instance (h : Shown contractId ids w w') :
    Read.Agree w w' (ContractService.getInstance contractId) := by
  have hrows : Read.Agree w w' (select fun i : WorkflowInstance => i.contractId = contractId) := by
    unfold Read.Agree
    rw [select_apply, select_apply, show (Stored.table w'.db : Table WorkflowInstance) = Stored.table w.db from
      h.instances]
  exact Read.agree_bind (Read.agree_bind hrows fun _ _ _ => rfl) fun _ _ _ => rfl

theorem Shown.agree_documentSummary (h : Shown contractId ids w w') (hkeys : OwnKeys w)
    (hd : w.db.documents.get documentId = some d) (hnamed : Named contractId ids d) :
    Read.Agree w w' (documentSummary env documentId organization) := by
  refine Read.agree_bind (h.agree_document hd hnamed) fun document hdocument _ => ?_
  obtain rfl := Option.some.inj (hd.symm.trans ((require_ok_iff _ _ _ _).mp hdocument))
  refine Read.agree_bind (hnamed.1 ▸ h.agree_contract) fun _ _ _ => Read.agree_bind rfl fun _ _ _ =>
    Read.agree_bind rfl fun v hv _ => Read.agree_bind rfl fun _ _ _ => ?_
  have hmem := (Table.get_eq_some_iff.mp hd).1
  rw [lift_query_ok_iff, orRaise_ok_iff] at hv
  have hkey : OwnKey d.id v.storageKey := hkeys d hmem v (List.mem_of_getLast? hv)
  exact Read.agree_bind (h.agree_downloadVersion env hmem hnamed hkey) fun _ _ _ => rfl

/-- The contract is summarized alike where the same is told of its documents. -/
theorem Shown.contractSummary_toOption (h : Shown contractId ids w w')
    (hlatest : ∀ c, w.db.contracts.get contractId = some c →
      (AIService.requireSummaries env organization c).toBool = true → SameLatest env contractId w w') :
    (contractSummary env contractId organization w).toOption =
      (contractSummary env contractId organization w').toOption := by
  refine toOption_bind_congr (congrArg Except.toOption h.agree_contract) fun c hc => toOption_bind_congr rfl
    fun _ hallowed => toOption_bind_congr (congrArg Except.toOption h.agree_instance) fun i _ => ?_
  have hc' : w.db.contracts.get contractId = some c := (require_ok_iff _ _ _ _).mp hc
  have hdocuments : SameLatest env contractId w w' := by
    rw [lift_query_ok_iff] at hallowed
    refine hlatest c hc' ?_
    rw [hallowed]
    rfl
  have hread : ∀ (f : List Document → Query String) (w : World), ((ContractService.documentsOf contractId) >>= f) w =
      f (w.db.documents.select fun d => d.contractId = contractId) w := fun _ _ => rfl
  dsimp only
  rw [hread, hread]
  exact toOption_bind_congr (contents_latest hdocuments) fun _ _ => rfl

end Orchestract
