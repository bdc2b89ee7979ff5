import Orchestract.Documents.Retrieval
import Orchestract.Library.Since
import Orchestract.Operations.Histories

/-!
# Versions and their uploads

How the documents change in a history: they are added without versions, edited beside them, or given
one more. Every version belongs to the upload that it was made for, and is the only one of its id.
-/

namespace Orchestract

set_option autoImplicit false

open DocumentService (Upload)

/-- The uploads to a document that a change has brought to their end. -/
def Change.uploadsTo (documentId : Nat) (s : System) : Change → List Upload
  | .call i => i.uploadsTo documentId s
  | _ => []

/-- What has been uploaded to a document, in this order. -/
def uploaded (files : Bucket → String → Option Bytes) (changes : List Change) (documentId : Nat) : List Upload :=
  Runs.log System.next (fun s c => c.uploadsTo documentId s) (.initial files) changes

/-- The versions have ids of their own, all of which have been given out. -/
structure Document.VersionsApart (next : Nat) (d : Document) : Prop where
  nodup : (d.versions.map fun v => v.id).Nodup
  given : ∀ v ∈ d.versions, v.id < next

/-! ## How documents change -/

section

variable {I : Table Document → Nat → Prop} {s : System} {i : Input}
  (insert : ∀ {t t' : Table Document} {n : Nat} {d new : Document}, I t n → d.versions = [] →
    d.currentVersionNo = 0 → t.insert d = some (new, t') → I t' n)
  (edit : ∀ {t t' : Table Document} {n : Nat} {d d' : Document}, I t n → d ∈ t.rows → d'.id = d.id →
    d'.versions = d.versions → d'.currentVersionNo = d.currentVersionNo → t.update d' = some t' → I t' n)
  (version : ∀ {t t' : Table Document} {n : Nat} {d : Document} {v : DocumentVersion} {now : Nat}, I t n →
    d ∈ t.rows → v.id = n → t.update (d.addVersion v now) = some t' → I t' (n + 1))

include insert edit in
theorem committed_documents {w w' : World} (hcall : i.operation.isUpload = false)
    (h : I w.db.documents w.db.nextVersionId) (hstep : Committed i w w') :
    I w'.db.documents w'.db.nextVersionId := by
  cases hstep with
  | newContract _ _ _ _ hd versions currentVersionNo => exact insert h versions currentVersionNo hd
  | newDocument versions currentVersionNo hd => exact insert h versions currentVersionNo hd
  | document hd id versions currentVersionNo hupdate => exact edit h hd id versions currentVersionNo hupdate
  | upload call =>
    rw [hcall] at call
    cases call
  | _ => exact h

include version in
theorem upload_documents (env : Env) (documentId : Nat) (u : Upload) (commits : Bool) {w : World}
    (h : I w.db.documents w.db.nextVersionId) :
    I (Operation.upload env documentId u commits w).2.db.documents
      (Operation.upload env documentId u commits w).2.db.nextVersionId := by
  rcases DocumentService.upload_cases env documentId u commits w with
    ⟨e, he⟩ | ⟨t, _, ⟨e, he⟩ | ⟨documents, hdocuments, hok⟩⟩
  · rw [he]
    exact h
  · rw [he]
    exact h
  · rw [hok]
    exact version h (Table.get_eq_some_iff.mp t.document_get).1 rfl hdocuments

include version in
/-- Uploads and imports give a document one more version. -/
theorem perform_uploads (hupload : i.operation.isUpload = true)
    (h : I s.world.db.documents s.world.db.nextVersionId) :
    I (perform s i).world.db.documents (perform s i).world.db.nextVersionId := by
  cases hcall : i.operation with
  | uploadVersion documentId u commits =>
    have hrun : i.operation.run i.env s =
        Action.onSystem ((fun _ => ()) <$> Operation.upload i.env documentId u commits) s := by
      rw [hcall]
      rfl
    unfold perform
    rw [hrun, onSystem_map]
    exact upload_documents version i.env documentId u commits h
  | importVersion documentId connectionId externalFileId uploadedBy notes commits =>
    unfold perform
    rw [hcall]
    cases himported : Operation.imported i.env connectionId externalFileId uploadedBy notes s.world with
    | error e =>
      rw [importVersion_error documentId commits himported]
      exact h
    | ok u =>
      rw [importVersion_ok documentId commits himported, onSystem_map]
      exact upload_documents version i.env documentId u commits h
  | _ =>
    rw [hcall] at hupload
    cases hupload

include insert edit version in
/-- Documents are added without versions, edited beside them, or given one more. -/
theorem perform_documents (h : I s.world.db.documents s.world.db.nextVersionId) :
    I (perform s i).world.db.documents (perform s i).world.db.nextVersionId := by
  cases hupload : i.operation.isUpload with
  | false =>
    exact perform_invariant (I := fun w => I w.db.documents w.db.nextVersionId)
      (fun _ _ h hstep => committed_documents (I := I) insert edit hupload h hstep) h
  | true => exact perform_uploads version hupload h

include insert edit version in
theorem next_documents {c : Change} (h : I s.world.db.documents s.world.db.nextVersionId) :
    I (s.next c).world.db.documents (s.next c).world.db.nextVersionId := by
  have hsame : ∀ {w : World}, w.db.documents = s.world.db.documents →
      w.db.nextVersionId = s.world.db.nextVersionId → I w.db.documents w.db.nextVersionId := by
    intro w hdocuments hids
    rw [hdocuments, hids]
    exact h
  cases c with
  | call i => exact perform_documents insert edit version h
  | _ =>
    exact hsame (next_same (n := .documents) (by simp [Change.footprint]))
      (next_same (n := .versionIds) (by simp [Change.footprint]))

end

/-! ## The ids of versions -/

section

variable {d : Document} {n : Nat}

theorem versionsApart_nil (h : d.versions = []) : d.VersionsApart n := by
  constructor
  · rw [h]
    exact List.nodup_nil
  · rw [h]
    exact fun v hv => by cases hv

theorem versionsApart_of_eq {d' : Document} (h : d.VersionsApart n) (hversions : d'.versions = d.versions) :
    d'.VersionsApart n :=
  ⟨hversions.symm ▸ h.nodup, hversions.symm ▸ h.given⟩

theorem versionsApart_succ (h : d.VersionsApart n) : d.VersionsApart (n + 1) :=
  ⟨h.nodup, fun v hv => Nat.lt_succ_of_lt (h.given v hv)⟩

/-- The next version has the next id. -/
theorem versionsApart_addVersion (h : d.VersionsApart n) {v : DocumentVersion} (hid : v.id = n) (now : Nat) :
    (d.addVersion v now).VersionsApart (n + 1) := by
  obtain ⟨added, hadded, hversions⟩ : ∃ added : DocumentVersion, added.id = n ∧
      (d.addVersion v now).versions = d.versions ++ [added] :=
    ⟨{ v with versionNo := d.currentVersionNo + 1 }, hid, rfl⟩
  constructor
  · rw [hversions, List.map_append, List.map_singleton, hadded]
    refine List.nodup_append.mpr ⟨h.nodup, List.nodup_singleton _, fun a ha b hb => ?_⟩
    obtain ⟨u, hu, rfl⟩ := List.mem_map.mp ha
    rw [List.mem_singleton.mp hb]
    exact Nat.ne_of_lt (h.given u hu)
  · intro u hu
    rw [hversions] at hu
    rcases List.mem_append.mp hu with hu | hu
    · exact Nat.lt_succ_of_lt (h.given u hu)
    · rw [List.mem_singleton.mp hu, hadded]
      exact Nat.lt_succ_self n

/-- A version is looked up by its id. -/
theorem find_version_iff (h : d.VersionsApart n) {versionId : Nat} {v : DocumentVersion} :
    d.versions.find? (fun v => v.id = versionId) = some v ↔ v ∈ d.versions ∧ v.id = versionId := by
  constructor
  · intro hfind
    exact ⟨List.mem_of_find?_eq_some hfind, by simpa using List.find?_some hfind⟩
  · rintro ⟨hv, rfl⟩
    obtain ⟨found, hfound⟩ : ∃ found, d.versions.find? (fun v' => v'.id = v.id) = some found := by
      rw [← Option.isSome_iff_exists, List.find?_isSome]
      exact ⟨v, hv, decide_eq_true rfl⟩
    have hid : found.id = v.id := by simpa using List.find?_some hfound
    rw [hfound, List.inj_on_of_nodup_map h.nodup (List.mem_of_find?_eq_some hfound) hv hid]

theorem versionsApart_after (files : Bucket → String → Option Bytes) (changes : List Change) :
    ∀ d ∈ (System.after files changes).world.db.documents.rows,
      d.VersionsApart (System.after files changes).world.db.nextVersionId := by
  refine Runs.run_invariant (I := fun s : System => ∀ d ∈ s.world.db.documents.rows,
    d.VersionsApart s.world.db.nextVersionId) (fun s c hs => ?_) (fun d hd => by cases hd) changes
  refine next_documents (I := fun t n => ∀ d ∈ t.rows, d.VersionsApart n) ?_ ?_ ?_ hs
  · intro t t' n d new ht hversions _ hinsert b hb
    rcases (Table.mem_insert_iff hinsert).mp hb with hb | rfl
    · exact ht b hb
    · obtain ⟨hnew, _⟩ := Table.insert_eq_some hinsert
      rw [hnew]
      exact versionsApart_nil hversions
  · intro t t' n d d' ht hd _ hversions _ hupdate b hb
    rcases Table.mem_update hupdate hb with rfl | ⟨hb, _⟩
    · exact versionsApart_of_eq (ht d hd) hversions
    · exact ht b hb
  · intro t t' n d v now ht hd hid hupdate b hb
    rcases Table.mem_update hupdate hb with rfl | ⟨hb, _⟩
    · exact versionsApart_addVersion (ht d hd) hid now
    · exact versionsApart_succ (ht b hb)

end

/-! ## The uploads of the versions -/

section

variable {settings : Settings} {uploads : Nat → List Upload}

theorem exists_zip_of_forall₂ {α β : Type} {R : α → β → Prop} {as : List α} {bs : List β}
    (h : List.Forall₂ R as bs) {a : α} (ha : a ∈ as) : ∃ b, (a, b) ∈ as.zip bs := by
  induction h with
  | nil => cases ha
  | cons _ _ ih =>
    rcases List.mem_cons.mp ha with rfl | ha
    · exact ⟨_, List.mem_cons_self⟩
    · obtain ⟨b, hb⟩ := ih ha
      exact ⟨b, List.mem_cons_of_mem _ hb⟩

/-- Besides the calls, nothing touches documents, connections and files. -/
theorem kept_next {s : System} {c : Change} (h : Kept settings s.world uploads)
    (hsettings : ∀ i, c = .call i → i.env.settings = settings) :
    Kept settings (s.next c).world fun id => uploads id ++ c.uploadsTo id s := by
  cases c with
  | call i => exact kept_perform h (hsettings i rfl)
  | _ =>
    simp only [Change.uploadsTo, List.append_nil]
    exact kept_of_eq h (next_same (n := .documents) (by simp [Change.footprint]))
      (next_same (n := .connections) (by simp [Change.footprint]))
      (next_same (n := .files) (by simp [Change.footprint]))

/-- The versions of every document are those of its uploads. -/
theorem kept_after (files : Bucket → String → Option Bytes) {changes : List Change}
    (h : ∀ i, Change.call i ∈ changes → i.env.settings = settings) :
    Kept settings (System.after files changes).world (uploaded files changes) := by
  have hempty : Kept settings (System.initial files).world fun _ => [] :=
    ⟨fun d hd => (by cases hd), fun d hd => (by cases hd), fun _ _ => rfl, fun c hc => (by cases hc)⟩
  refine Runs.logs_invariant (I := fun (s : System) uploads => Kept settings s.world uploads)
    (C := fun _ c => ∀ i : Input, c = .call i → i.env.settings = settings)
    (fun _ _ _ hs hc => kept_next hs hc) hempty (Runs.along_inputs.mpr ?_)
  rintro _ hmem i rfl
  exact h i hmem

end

end Orchestract
