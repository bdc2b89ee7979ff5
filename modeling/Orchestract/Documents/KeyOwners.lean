import Orchestract.Documents.StorageKeys
import Orchestract.Documents.Uploads
import Orchestract.Operations.Histories

/-!
# Whose bytes are where

Whatever has happened, the bytes of a version are stored under a key of its own document.
-/

namespace Orchestract

set_option autoImplicit false

open DocumentService (storageKey)

/-- The key is one of the document's. -/
def OwnKey (documentId : Nat) (key : String) : Prop :=
  ∃ contract document filename, key = storageKey contract document filename ∧ document.id = documentId

theorem ownKey_storageKey (contract : Contract) (document : Document) (filename : String) :
    OwnKey document.id (storageKey contract document filename) :=
  ⟨contract, document, filename, rfl, rfl⟩

/-- No key is one of two documents. -/
theorem OwnKey.unique {a b : Nat} {key : String} (ha : OwnKey a key) (hb : OwnKey b key) : a = b := by
  obtain ⟨_, d, _, rfl, rfl⟩ := ha
  obtain ⟨_, d', _, heq, rfl⟩ := hb
  obtain ⟨_, _, hid, _⟩ := DocumentService.storageKey_inj heq
  exact hid

def OwnKeys (w : World) : Prop := ∀ d ∈ w.db.documents.rows, ∀ v ∈ d.versions, OwnKey d.id v.storageKey

variable {w w' : World}

theorem ownKeys_insert {d new : Document} {t : Table Document} (h : OwnKeys w)
    (hinsert : w.db.documents.insert d = some (new, t)) (hversions : d.versions = [])
    (hdocuments : w'.db.documents = t) : OwnKeys w' := by
  obtain ⟨hnew, _, _⟩ := Table.insert_eq_some hinsert
  intro a ha v hv
  rw [hdocuments] at ha
  rcases (Table.mem_insert_iff hinsert).mp ha with ha | rfl
  · exact h a ha v hv
  · have hnone : a.versions = [] := by
      rw [hnew]
      exact hversions
    rw [hnone] at hv
    cases hv

theorem ownKeys_update {d : Document} {t : Table Document} (h : OwnKeys w)
    (hupdate : w.db.documents.update d = some t) (hd : ∀ v ∈ d.versions, OwnKey d.id v.storageKey)
    (hdocuments : w'.db.documents = t) : OwnKeys w' := by
  intro a ha v hv
  rw [hdocuments] at ha
  rcases Table.mem_update hupdate ha with rfl | ⟨ha, _⟩
  · exact hd v hv
  · exact h a ha v hv

theorem ownKeys_committed {i : Input} (hcall : i.operation.isUpload = false) (h : OwnKeys w)
    (hstep : Committed i w w') : OwnKeys w' := by
  cases hstep with
  | upload call t n files =>
    rw [call] at hcall
    cases hcall
  | newContract ho room hdef hk hd versions currentVersionNo hstart hi => exact ownKeys_insert h hd versions rfl
  | newDocument versions currentVersionNo hinsert => exact ownKeys_insert h hinsert versions rfl
  | @document d d' t hd id versions currentVersionNo hupdate =>
    refine ownKeys_update h hupdate (fun v hv => ?_) rfl
    rw [id]
    exact h d hd v (versions ▸ hv)
  | _ => exact h

/-- The version that is added is stored under a key of its document. -/
theorem ownKeys_version {d : Document} {v : DocumentVersion} {now : Nat} (h : OwnKeys w)
    (hd : d ∈ w.db.documents.rows) (hv : OwnKey d.id v.storageKey) :
    ∀ u ∈ (d.addVersion v now).versions, OwnKey d.id u.storageKey := by
  intro u hu
  rcases List.mem_append.mp hu with hu | hu
  · exact h d hd u hu
  · rw [List.mem_singleton.mp hu]
    exact hv

theorem ownKeys_upload (env : Env) (documentId : Nat) (u : DocumentService.Upload) (commits : Bool)
    (h : OwnKeys w) : OwnKeys (Operation.upload env documentId u commits w).2 := by
  rcases DocumentService.upload_cases env documentId u commits w with
    ⟨e, he⟩ | ⟨t, _, ⟨e, he⟩ | ⟨documents, hdocuments, hok⟩⟩
  · rw [he]
    exact h
  · rw [he]
    exact h
  · rw [hok]
    refine ownKeys_update h hdocuments ?_ rfl
    exact ownKeys_version h (Table.get_eq_some_iff.mp t.document_get).1
      (ownKey_storageKey t.contract t.document u.filename)

/-- An upload or an import does nothing, or what an upload to some document does. -/
theorem perform_upload {s : System} {i : Input} (hcall : i.operation.isUpload = true) :
    (perform s i).world = s.world ∨ ∃ documentId u commits,
      (perform s i).world = (Operation.upload i.env documentId u commits s.world).2 := by
  obtain ⟨env, operation⟩ := i
  cases operation with
  | uploadVersion documentId u commits =>
    exact Or.inr ⟨documentId, u, commits, congrArg (·.2.world) (onSystem_map _ s)⟩
  | importVersion documentId connectionId externalFileId uploadedBy notes commits =>
    cases himported : Operation.imported env connectionId externalFileId uploadedBy notes s.world with
    | error e => exact Or.inl (congrArg (·.2.world) (importVersion_error documentId commits himported))
    | ok u =>
      have hrun := (importVersion_ok documentId commits himported).trans (onSystem_map _ s)
      exact Or.inr ⟨documentId, u, commits, congrArg (·.2.world) hrun⟩
  | _ => cases hcall

theorem ownKeys_next {s : System} {c : Change} (h : OwnKeys s.world) : OwnKeys (s.next c).world := by
  cases c with
  | call i =>
    cases hcall : i.operation.isUpload with
    | false => exact perform_invariant (fun _ _ => ownKeys_committed hcall) h
    | true =>
      change OwnKeys (perform s i).world
      rcases perform_upload hcall with hsame | ⟨documentId, u, commits, hupload⟩
      · rw [hsame]
        exact h
      · rw [hupload]
        exact ownKeys_upload i.env documentId u commits h
  | _ =>
    unfold OwnKeys
    rw [next_same (n := .documents) (by simp [Change.footprint])]
    exact h

theorem ownKeys_after (files : Bucket → String → Option Bytes) (changes : List Change) :
    OwnKeys (System.after files changes).world :=
  Runs.run_invariant (I := fun s : System => OwnKeys s.world) (fun _ _ => ownKeys_next)
    (fun d hd => by cases hd) changes

end Orchestract
