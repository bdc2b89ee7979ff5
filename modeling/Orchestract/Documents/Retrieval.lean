import Mathlib.Data.List.Forall2
import Orchestract.Documents.StorageKeys
import Orchestract.Documents.Uploads
import Orchestract.Isolation.WriteIsolation
import Orchestract.Operations.Reaches

/-!
# Uploads stay retrievable

Whatever is called, one call at a time, the versions of a document are its successful uploads, and
a download of each returns the bytes that were uploaded: no later put uses the key of a version, and
what a version's connection needs to find its objects never changes.
-/

namespace Orchestract

set_option autoImplicit false

open DocumentService (Upload storageKey newVersion downloadVersion)

/-- What a call uploads, and to which document. -/
def Input.attempt (s : System) (i : Input) : Option (Nat × Upload) :=
  match i.operation with
  | .uploadVersion documentId u _ => some (documentId, u)
  | .importVersion documentId connectionId externalFileId uploadedBy notes _ =>
    match Operation.imported i.env connectionId externalFileId uploadedBy notes s.world with
    | .ok u => some (documentId, u)
    | .error _ => none
  | _ => none

/-- The uploads to a document that a call has brought to their end. -/
def Input.uploadsTo (documentId : Nat) (s : System) (i : Input) : List Upload :=
  match (i.operation.run i.env s).1, i.attempt s with
  | .ok _, some (id, u) => if documentId = id then [u] else []
  | _, _ => []

def uploadsTo (documentId : Nat) : System → List Input → List Upload
  | _, [] => []
  | s, i :: inputs => i.uploadsTo documentId s ++ uploadsTo documentId (perform s i) inputs

/-- The version has the name and the size of the upload, and a download returns its bytes. -/
structure Served (settings : Settings) (w : World) (v : DocumentVersion) (u : Upload) : Prop where
  name : v.originalFilename = u.filename
  size : v.sizeBytes = u.content.length
  download : ∀ env : Env, env.settings = settings → downloadVersion env v w = .ok u.content

structure Retrievable (settings : Settings) (w : World) (d : Document) (uploads : List Upload) : Prop where
  numbers : d.versions.map (fun v => v.versionNo) = List.range' 1 d.currentVersionNo
  versions : List.Forall₂ (Served settings w) d.versions uploads
  latest : Option.Rel (Served settings w) d.latestVersion uploads.getLast?

/-- Every document is retrievable after the run. -/
def AllRetrievable (settings : Settings) (s : System) (inputs : List Input) : Prop :=
  ∀ d ∈ (Runs.run perform s inputs).world.db.documents.rows,
    Retrievable settings (Runs.run perform s inputs).world d (uploadsTo d.id s inputs)

/-! ## What is kept -/

/-- The connection can be written to, and keeps its objects in this bucket. -/
structure Keeps (settings : Settings) (c : StorageConnection) (bucket : Bucket) : Prop where
  writeCapable : c.isWriteCapable = true
  build : ∀ env : Env, env.settings = settings → ∀ w,
    buildFileStorage env c (c.credential.getD .empty) w = .ok bucket

/-- Why a version is served: its key is that of its document and number, and its bytes are where
its connection keeps its objects. -/
structure Placed (settings : Settings) (w : World) (d : Document) (v : DocumentVersion) (u : Upload) :
    Prop where
  name : v.originalFilename = u.filename
  size : v.sizeBytes = u.content.length
  number : v.versionNo ≤ d.currentVersionNo
  key : ∃ contract document filename, v.storageKey = storageKey contract document filename ∧
    document.id = d.id ∧ document.currentVersionNo + 1 = v.versionNo
  place : ∃ c ∈ w.db.connections.rows, ∃ bucket, c.id = v.storageConnectionId ∧
    Keeps settings c bucket ∧ w.files bucket v.storageKey = some u.content

structure Kept (settings : Settings) (w : World) (uploads : Nat → List Upload) : Prop where
  numbers : ∀ d ∈ w.db.documents.rows,
    d.versions.map (fun v => v.versionNo) = List.range' 1 d.currentVersionNo
  versions : ∀ d ∈ w.db.documents.rows, List.Forall₂ (Placed settings w d) d.versions (uploads d.id)
  unused : ∀ id, w.db.documents.get id = none → uploads id = []
  primary : ∀ c ∈ w.db.connections.rows, c.isPrimary = true → c.isWriteCapable = true

variable {settings : Settings} {w w' : World} {uploads : Nat → List Upload}

/-- Where a connection keeps its objects depends on the settings and on its own columns. -/
theorem buildFileStorage_congr {env env' : Env} {c c' : StorageConnection}
    (hsettings : env'.settings = env.settings) (hprovider : c'.provider = c.provider)
    (hconfig : c'.config = c.config) (secrets : StorageSecrets) (w w' : World) :
    buildFileStorage env' c' secrets w' = buildFileStorage env c secrets w := by
  unfold buildFileStorage
  rw [hprovider, hconfig, hsettings]
  cases c.provider <;> rfl

theorem keeps_congr {c c' : StorageConnection} {bucket : Bucket} (h : Keeps settings c bucket)
    (hprovider : c'.provider = c.provider) (hconfig : c'.config = c.config)
    (hcredential : c'.credential = c.credential) : Keeps settings c' bucket := by
  refine ⟨?_, fun env henv w => ?_⟩
  · unfold StorageConnection.isWriteCapable
    rw [hprovider]
    exact h.writeCapable
  · rw [hcredential, buildFileStorage_congr rfl hprovider hconfig _ w w]
    exact h.build env henv w

/-- The files stay, and so do the connections as far as they can be written to. -/
theorem placed_mono {d d' : Document} {v : DocumentVersion} {u : Upload} (h : Placed settings w d v u)
    (hid : d'.id = d.id) (hnumber : d.currentVersionNo ≤ d'.currentVersionNo)
    (hfiles : w'.files = w.files) (hconnections : ∀ c ∈ w.db.connections.rows, c.isWriteCapable = true →
      ∃ c' ∈ w'.db.connections.rows, c'.id = c.id ∧ c'.provider = c.provider ∧ c'.config = c.config ∧
        c'.credential = c.credential) : Placed settings w' d' v u := by
  obtain ⟨contract, document, filename, hkey, hdocument, hversion⟩ := h.key
  obtain ⟨c, hc, bucket, hcid, hkeeps, hbytes⟩ := h.place
  obtain ⟨c', hc', hcid', hprovider, hconfig, hcredential⟩ := hconnections c hc hkeeps.writeCapable
  exact ⟨h.name, h.size, h.number.trans hnumber,
    ⟨contract, document, filename, hkey, hdocument.trans hid.symm, hversion⟩,
    c', hc', bucket, hcid'.trans hcid, keeps_congr hkeeps hprovider hconfig hcredential,
    hfiles ▸ hbytes⟩

theorem placed_same {d d' : Document} {vs : List DocumentVersion} {us : List Upload}
    (h : List.Forall₂ (Placed settings w d) vs us) (hid : d'.id = d.id)
    (hnumber : d.currentVersionNo ≤ d'.currentVersionNo) (hfiles : w'.files = w.files)
    (hconnections : w'.db.connections = w.db.connections) : List.Forall₂ (Placed settings w' d') vs us :=
  h.imp fun _ _ hplaced => placed_mono hplaced hid hnumber hfiles
    fun c hc _ => ⟨c, hconnections ▸ hc, rfl, rfl, rfl, rfl⟩

/-- A commit that touches no document, no connection and no file. -/
theorem kept_of_eq (h : Kept settings w uploads) (hdocuments : w'.db.documents = w.db.documents)
    (hconnections : w'.db.connections = w.db.connections) (hfiles : w'.files = w.files) :
    Kept settings w' uploads := by
  refine ⟨fun d hd => h.numbers d (hdocuments ▸ hd), fun d hd => ?_,
    fun id hid => h.unused id (hdocuments ▸ hid), fun c hc => h.primary c (hconnections ▸ hc)⟩
  exact placed_same (h.versions d (hdocuments ▸ hd)) rfl (Nat.le_refl _) hfiles hconnections

/-- A new document has no version. -/
theorem kept_newDocument {d new : Document} {t : Table Document} (h : Kept settings w uploads)
    (hinsert : w.db.documents.insert d = some (new, t)) (hversions : d.versions = [])
    (hnumber : d.currentVersionNo = 0) (hdocuments : w'.db.documents = t)
    (hconnections : w'.db.connections = w.db.connections) (hfiles : w'.files = w.files) :
    Kept settings w' uploads := by
  obtain ⟨hnew, _, _⟩ := Table.insert_eq_some hinsert
  have hid : new.id = w.db.documents.next := by rw [hnew]; rfl
  refine ⟨fun d' hd' => ?_, fun d' hd' => ?_, fun id hget => ?_, fun c hc => h.primary c (hconnections ▸ hc)⟩
  · rw [hdocuments] at hd'
    rcases (Table.mem_insert_iff hinsert).mp hd' with hold | rfl
    · exact h.numbers d' hold
    · rw [hnew]
      change d.versions.map _ = List.range' 1 d.currentVersionNo
      rw [hversions, hnumber]
      rfl
  · rw [hdocuments] at hd'
    rcases (Table.mem_insert_iff hinsert).mp hd' with hold | rfl
    · exact placed_same (h.versions d' hold) rfl (Nat.le_refl _) hfiles hconnections
    · have hrow : d'.versions = [] := by
        rw [hnew]
        exact hversions
      rw [hrow, hid, h.unused _ (Table.get_next _)]
      exact .nil
  · apply h.unused
    by_contra hsome
    obtain ⟨b, hb⟩ := Option.ne_none_iff_exists'.mp hsome
    rw [hdocuments, Table.get_of_insert hinsert hb] at hget
    cases hget

/-- A changed document keeps its versions. -/
theorem kept_document {d d' : Document} {t : Table Document} (h : Kept settings w uploads)
    (hd : d ∈ w.db.documents.rows) (hid : d'.id = d.id) (hversions : d'.versions = d.versions)
    (hnumber : d'.currentVersionNo = d.currentVersionNo) (hupdate : w.db.documents.update d' = some t) :
    Kept settings { w with db := { w.db with documents := t } } uploads := by
  refine ⟨fun e he => ?_, fun e he => ?_, fun id hget => ?_, h.primary⟩
  · rcases Table.mem_update hupdate he with rfl | ⟨he, _⟩
    · rw [hversions, hnumber]
      exact h.numbers d hd
    · exact h.numbers e he
  · rcases Table.mem_update hupdate he with rfl | ⟨he, _⟩
    · rw [hversions, hid]
      exact placed_same (h.versions d hd) hid (Nat.le_of_eq hnumber.symm) rfl rfl
    · exact placed_same (h.versions e he) rfl (Nat.le_refl _) rfl rfl
  · apply h.unused
    rw [Table.get_update hupdate] at hget
    split_ifs at hget with hrow
    · exact Option.map_eq_none_iff.mp hget
    · exact hget

/-- New and changed connections, none of which can be written to otherwise than before. -/
theorem kept_connections {t : Table StorageConnection} (h : Kept settings w uploads)
    (hlast : ∀ c ∈ w.db.connections.rows, c.isWriteCapable = true →
      ∃ c' ∈ t.rows, c'.id = c.id ∧ c'.provider = c.provider ∧ c'.config = c.config ∧
        c'.credential = c.credential)
    (hprimary : ∀ c ∈ t.rows, c.isPrimary = true → c.isWriteCapable = true) :
    Kept settings { w with db := { w.db with connections := t } } uploads := by
  refine ⟨h.numbers, fun d hd => List.Forall₂.imp (fun v u hplaced => ?_) (h.versions d hd), h.unused,
    hprimary⟩
  exact placed_mono hplaced rfl (Nat.le_refl _) rfl hlast

theorem kept_connection {c c' : StorageConnection} {t : Table StorageConnection}
    (h : Kept settings w uploads) (hc : c ∈ w.db.connections.rows) (edit : ConnectionEdit c c')
    (hupdate : w.db.connections.update c' = some t) :
    Kept settings { w with db := { w.db with connections := t } } uploads := by
  have hwrite : c'.isWriteCapable = c.isWriteCapable := by
    unfold StorageConnection.isWriteCapable
    rw [edit.provider]
  refine kept_connections h (fun a ha hcapable => ?_) fun a ha hprimary => ?_
  · by_cases hid : a.id = c'.id
    · obtain rfl := Table.eq_of_id ha hc (hid.trans edit.id)
      refine ⟨c', Table.mem_of_update hupdate hc edit.id.symm, edit.id, edit.provider, edit.config, ?_⟩
      rcases edit.credential with hsame | hnot
      · exact hsame
      · rw [hcapable] at hnot
        cases hnot
    · obtain ⟨hrows, _⟩ := Table.update_eq_some hupdate
      exact ⟨a, hrows ▸ mem_overwrite_of_ne ha hid, rfl, rfl, rfl, rfl⟩
  · rcases Table.mem_update hupdate ha with rfl | ⟨ha, _⟩
    · rw [hwrite]
      rcases edit.primary hprimary with hp | hcapable
      · exact h.primary c hc hp
      · exact hcapable
    · exact h.primary a ha hprimary

/-- A call that uploads nothing. -/
theorem kept_committed {i : Input} (hcall : i.operation.isUpload = false) (h : Kept settings w uploads)
    (hstep : Committed i w w') : Kept settings w' uploads := by
  cases hstep with
  | upload call t n files =>
    rw [call] at hcall
    cases hcall
  | newContract ho room hdef hk hd versions currentVersionNo hstart hi =>
    exact kept_newDocument h hd versions currentVersionNo rfl rfl rfl
  | newDocument versions currentVersionNo hinsert =>
    exact kept_newDocument h hinsert versions currentVersionNo rfl rfl rfl
  | document hd id versions currentVersionNo hupdate =>
    exact kept_document h hd id versions currentVersionNo hupdate
  | @newConnection c new t primary hinsert =>
    obtain ⟨hnew, _, _⟩ := Table.insert_eq_some hinsert
    refine kept_connections h (fun a ha _ => ?_) fun a ha hprimary => ?_
    · exact ⟨a, (Table.mem_insert_iff hinsert).mpr (Or.inl ha), rfl, rfl, rfl, rfl⟩
    · rcases (Table.mem_insert_iff hinsert).mp ha with ha | rfl
      · exact h.primary a ha hprimary
      · rw [hnew] at hprimary ⊢
        exact primary hprimary
  | connection hc edit hupdate => exact kept_connection h hc edit hupdate
  | _ => exact kept_of_eq h rfl rfl rfl

/-! ## An upload -/

/-- The key of the next version of a document is that of no version. -/
theorem kept_put {env : Env} {documentId : Nat} (h : Kept settings w uploads)
    (t : DocumentService.Target env documentId w) (u : Upload) :
    Kept settings { w with files := t.files u } uploads := by
  refine ⟨h.numbers, fun d hd => List.Forall₂.imp (fun v u' hplaced => ?_) (h.versions d hd), h.unused,
    h.primary⟩
  obtain ⟨contract, document, filename, hkey, hdocument, hversion⟩ := hplaced.key
  obtain ⟨c, hc, bucket, hcid, hkeeps, hbytes⟩ := hplaced.place
  refine ⟨hplaced.name, hplaced.size, hplaced.number, hplaced.key, c, hc, bucket, hcid, hkeeps,
    putFile_same hbytes fun _ hsame => ?_⟩
  rw [hkey] at hsame
  obtain ⟨_, _, hid, hnumber, _⟩ := DocumentService.storageKey_inj hsame
  have hmem := (Table.get_eq_some_iff.mp t.document_get).1
  obtain rfl := Table.eq_of_id hd hmem (hdocument.symm.trans hid)
  have hle := hplaced.number
  omega

theorem placed_upload {env : Env} {documentId : Nat} (h : Kept settings w uploads)
    (hsettings : env.settings = settings) (t : DocumentService.Target env documentId w) (u : Upload) :
    Placed settings { w with files := t.files u } (t.document.addVersion (t.version u) env.now)
      (t.version u) u := by
  have hkeeps : Keeps settings t.connection t.bucket := by
    refine ⟨h.primary _ t.connection_mem t.connection_primary, fun env' henv' w' => ?_⟩
    rw [buildFileStorage_congr (henv'.trans hsettings.symm) rfl rfl _ w w']
    exact t.build
  exact ⟨rfl, rfl, Nat.le_refl _, ⟨t.contract, t.document, u.filename, rfl, rfl, rfl⟩, t.connection,
    t.connection_mem, t.bucket, rfl, hkeeps, putFile_self _ _ _ _⟩

/-- The committed version is the next one of its document. -/
theorem kept_commit {env : Env} {documentId : Nat} {documents : Table Document}
    (h : Kept settings w uploads) (hsettings : env.settings = settings)
    (t : DocumentService.Target env documentId w) (u : Upload)
    (hdocuments : w.db.documents.update (t.document.addVersion (t.version u) env.now) = some documents) :
    Kept settings
      ⟨{ w.db with documents := documents, nextVersionId := w.db.nextVersionId + 1 }, t.files u⟩
      fun id => uploads id ++ if id = documentId then [u] else [] := by
  have hput := kept_put h t u
  obtain ⟨hmem, hid⟩ : t.document ∈ w.db.documents.rows ∧ t.document.id = documentId :=
    Table.get_eq_some_iff.mp t.document_get
  refine ⟨fun d hd => ?_, fun d hd => ?_, fun id hget => ?_, hput.primary⟩
  · rcases Table.mem_update hdocuments hd with rfl | ⟨hd, _⟩
    · change (t.document.versions ++ [t.version u]).map (fun v => v.versionNo) =
        List.range' 1 (t.document.currentVersionNo + 1)
      rw [List.map_append, h.numbers _ hmem, List.range'_1_concat, Nat.add_comm 1]
      rfl
    · exact h.numbers d hd
  · rcases Table.mem_update hdocuments hd with rfl | ⟨hd, hne⟩
    · change List.Forall₂ _ (t.document.versions ++ [t.version u]) (uploads t.document.id ++
        if t.document.id = documentId then [u] else [])
      rw [if_pos hid]
      refine List.rel_append (placed_same (hput.versions _ hmem) ?_ (Nat.le_succ _) ?_ ?_)
        (placed_same (.cons (placed_upload h hsettings t u) .nil) ?_ (Nat.le_refl _) ?_ ?_) <;> rfl
    · have hother : d.id ≠ documentId := fun heq => hne (heq.trans hid.symm)
      simp only [if_neg hother, List.append_nil]
      exact placed_same (hput.versions d hd) rfl (Nat.le_refl _) rfl rfl
  · change documents.get id = none at hget
    rw [Table.get_update hdocuments] at hget
    have hnone : w.db.documents.get id = none := by
      split_ifs at hget with hrow
      · exact Option.map_eq_none_iff.mp hget
      · exact hget
    have hother : id ≠ documentId := by
      rintro rfl
      rw [t.document_get] at hnone
      cases hnone
    simp only [if_neg hother, List.append_nil]
    exact h.unused id hnone

theorem kept_upload {env : Env} (documentId : Nat) (u : Upload) (commits : Bool)
    (h : Kept settings w uploads) (hsettings : env.settings = settings) :
    (∀ v, (Operation.upload env documentId u commits w).1 = .ok v →
      Kept settings (Operation.upload env documentId u commits w).2
        fun id => uploads id ++ if id = documentId then [u] else []) ∧
    (∀ e, (Operation.upload env documentId u commits w).1 = .error e →
      Kept settings (Operation.upload env documentId u commits w).2 uploads) := by
  rcases DocumentService.upload_cases env documentId u commits w with
    ⟨e, he⟩ | ⟨t, _, ⟨e, he⟩ | ⟨documents, hdocuments, hok⟩⟩
  · rw [he]
    exact ⟨fun v hv => (by cases hv), fun _ _ => h⟩
  · rw [he]
    exact ⟨fun v hv => (by cases hv), fun _ _ => kept_put h t u⟩
  · rw [hok]
    exact ⟨fun v _ => kept_commit h hsettings t u hdocuments, fun e he => (by cases he)⟩

/-! ## Runs -/

variable {s : System} {i : Input}

theorem served_of_placed {d : Document} {v : DocumentVersion} {u : Upload}
    (h : Placed settings w d v u) : Served settings w v u := by
  obtain ⟨c, hc, bucket, hcid, hkeeps, hbytes⟩ := h.place
  refine ⟨h.name, h.size, fun env henv => ?_⟩
  have hget : StorageService.get v.storageConnectionId w = .ok c :=
    (require_ok_iff _ _ w c).mpr (Table.get_eq_some_iff.mpr ⟨hc, hcid⟩)
  unfold downloadVersion
  rw [Read.bind_ok hget, Read.bind_ok (hkeeps.build env henv w)]
  unfold getObject
  rw [hbytes]

theorem latest_of_forall₂ {α β : Type} {R : α → β → Prop} {as : List α} {bs : List β}
    (h : List.Forall₂ R as bs) : Option.Rel R as.getLast? bs.getLast? := by
  rw [List.getLast?_eq_head?_reverse, List.getLast?_eq_head?_reverse]
  have hreverse := List.rel_reverse h
  generalize as.reverse = as' at hreverse ⊢
  generalize bs.reverse = bs' at hreverse ⊢
  cases hreverse with
  | nil => exact .none
  | cons hhead _ => exact .some hhead

theorem uploadsTo_of_isUpload (h : i.operation.isUpload = false) (documentId : Nat) :
    i.uploadsTo documentId s = [] := by
  have hattempt : i.attempt s = none := by
    unfold Input.attempt
    cases hcall : i.operation with
    | uploadVersion documentId u commits =>
      rw [hcall] at h
      cases h
    | importVersion documentId connectionId externalFileId uploadedBy notes commits =>
      rw [hcall] at h
      cases h
    | _ => rfl
  unfold Input.uploadsTo
  rw [hattempt]
  cases (i.operation.run i.env s).1 <;> rfl

/-- The end of an upload, with what the call records of it. -/
theorem kept_recorded (documentId : Nat) (u : Upload) (commits : Bool)
    (h : Kept settings s.world uploads) (hsettings : i.env.settings = settings)
    (hattempt : i.attempt s = some (documentId, u))
    (hrun : i.operation.run i.env s =
      Action.onSystem ((fun _ => ()) <$> Operation.upload i.env documentId u commits) s) :
    Kept settings (perform s i).world fun id => uploads id ++ i.uploadsTo id s := by
  obtain ⟨hok, herror⟩ := kept_upload documentId u commits h hsettings
  unfold perform Input.uploadsTo
  rw [hrun, hattempt, onSystem_map]
  cases hresult : (Operation.upload i.env documentId u commits s.world).1 with
  | ok v => exact hok v hresult
  | error e =>
    simp only [List.append_nil]
    exact herror e hresult

theorem kept_perform (h : Kept settings s.world uploads) (hsettings : i.env.settings = settings) :
    Kept settings (perform s i).world fun id => uploads id ++ i.uploadsTo id s := by
  by_cases hupload : i.operation.isUpload = false
  · simp only [uploadsTo_of_isUpload hupload, List.append_nil]
    exact perform_invariant (fun _ _ => kept_committed hupload) h
  · cases hcall : i.operation with
    | uploadVersion documentId u commits =>
      refine kept_recorded documentId u commits h hsettings ?_ (by rw [hcall]; rfl)
      unfold Input.attempt
      rw [hcall]
    | importVersion documentId connectionId externalFileId uploadedBy notes commits =>
      cases himported : Operation.imported i.env connectionId externalFileId uploadedBy notes s.world with
      | error e =>
        have hrun : i.operation.run i.env s = (.error e, s) := by
          rw [hcall]
          exact importVersion_error documentId commits himported
        unfold perform Input.uploadsTo
        rw [hrun]
        simp only [List.append_nil]
        exact h
      | ok u =>
        refine kept_recorded documentId u commits h hsettings ?_ ?_
        · unfold Input.attempt
          rw [hcall]
          simp only [himported]
        · rw [hcall]
          exact importVersion_ok documentId commits himported
    | _ =>
      rw [hcall] at hupload
      exact absurd rfl hupload

theorem kept_run {inputs : List Input} (h : Kept settings s.world uploads)
    (hsettings : ∀ i ∈ inputs, i.env.settings = settings) :
    Kept settings (Runs.run perform s inputs).world fun id => uploads id ++ uploadsTo id s inputs := by
  induction inputs generalizing s uploads with
  | nil =>
    simp only [uploadsTo, List.append_nil]
    exact h
  | cons i inputs ih =>
    have hnext := ih (kept_perform h (hsettings i List.mem_cons_self))
      fun j hj => hsettings j (List.mem_cons_of_mem i hj)
    simp only [List.append_assoc] at hnext
    exact hnext

/-- Whatever is called, starting with an empty database, while the settings stay. -/
theorem retrievable_run (settings : Settings) (files : Bucket → String → Option Bytes)
    (inputs : List Input) (hsettings : ∀ i ∈ inputs, i.env.settings = settings) :
    AllRetrievable settings ⟨⟨.empty, files⟩, .empty⟩ inputs := by
  have hempty : Kept settings ⟨.empty, files⟩ fun _ => [] :=
    ⟨fun d hd => (by cases hd), fun d hd => (by cases hd), fun _ _ => rfl, fun c hc => (by cases hc)⟩
  have hkept := kept_run (s := ⟨⟨.empty, files⟩, .empty⟩) hempty hsettings
  intro d hd
  have hserved := (hkept.versions d hd).imp fun v u hplaced => served_of_placed hplaced
  exact ⟨hkept.numbers d hd, hserved, latest_of_forall₂ hserved⟩

/-- Alice stores a draft of her lease, fails to store another one, and moves to another bucket. -/
def leaseDrafts : List Input := List.map (fun operation => ⟨.offline 1 "token", operation⟩) [
  .register "Acme" "Alice" "alice@acme.test" "secret" none none,
  .createAgent 1 "Legal" none,
  .createDefinition 1 "Leases" none,
  .addStep 1 ⟨"sign", "Sign", none, 1, true, true⟩,
  .activate 1,
  .connectBucket 1 .local "Disk" .empty .empty,
  .createContract 1 "Lease" "Lease" 1 "Alice" none,
  .uploadVersion 1 ⟨[1, 2, 3], "lease.pdf", "application/pdf", "Alice", none, none, none⟩ true,
  .uploadVersion 1 ⟨[4], "lease.pdf", "application/pdf", "Alice", none, none, none⟩ false,
  .connectBucket 1 .gcs "Cloud" ⟨none, some "acme", none, none⟩
    { StorageSecrets.empty with serviceAccountInfo := some "key" },
  .uploadVersion 1 ⟨[5, 6], "lease.pdf", "application/pdf", "Alice", none, none, none⟩ true]

theorem retrievable_leaseDrafts :
    AllRetrievable (Env.offline 1 "token").settings ⟨⟨.empty, fun _ _ => none⟩, .empty⟩ leaseDrafts ∧
      ∃ d ∈ (Runs.run perform ⟨⟨.empty, fun _ _ => none⟩, .empty⟩ leaseDrafts).world.db.documents.rows,
        d.versions.length = 2 := by
  have hsettings : ∀ i ∈ leaseDrafts, i.env.settings = (Env.offline 1 "token").settings := by
    intro i hi
    obtain ⟨_, _, rfl⟩ := List.mem_map.mp hi
    rfl
  refine ⟨retrievable_run _ (fun _ _ => none) leaseDrafts hsettings, ?_⟩
  decide +kernel

end Orchestract
