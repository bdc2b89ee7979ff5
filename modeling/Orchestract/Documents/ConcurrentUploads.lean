import Mathlib.Logic.Function.Basic
import Orchestract.Documents.Uploads
import Orchestract.Isolation.WriteIsolation
import Orchestract.Library.Runs

/-!
# Concurrent uploads

Several uploads to one document. A request reads the document when it opens, stores its bytes under
the key of the version number it has read, and commits a row; the constraint `uq_doc_version` lets
one request have a number, and the bytes of the others stay stored.
-/

namespace Orchestract.ConcurrentUploads

set_option autoImplicit false

open DocumentService (storageKey newVersion)

universe u

/-- A request, the connection that was primary when it opened, and where this keeps its objects. -/
structure Request where
  env : Env
  connectionId : Nat
  bucket : Bucket
  upload : DocumentService.Upload

inductive Phase where
  | waiting
  | opened (document : Document)
  | stored (document : Document)
  | ended

inductive Event (κ : Type u) where
  | opens (k : κ)
  | puts (k : κ)
  | fails (k : κ)
  | commits (k : κ)

/-- The stored document and bytes, what the requests have read, and who committed which version. -/
structure State (κ : Type u) where
  document : Document
  nextVersionId : Nat
  files : Bucket → String → Option Bytes
  phase : κ → Phase
  committed : List (κ × DocumentVersion)

/-- A document without versions, before any request. -/
def start (κ : Type u) (document : Document) (nextVersionId : Nat)
    (files : Bucket → String → Option Bytes) : State κ :=
  ⟨{ document with currentVersionNo := 0, versions := [] }, nextVersionId, files, fun _ => .waiting, []⟩

section

variable {κ : Type u} (contract : Contract) (request : κ → Request)

/-- The key of a request that has read this document. -/
def key (k : κ) (document : Document) : String :=
  storageKey contract document (request k).upload.filename

/-- The row of a request that has read this document. -/
def version (k : κ) (document : Document) (id : Nat) : DocumentVersion :=
  newVersion (request k).env id document (request k).connectionId (key contract request k document)
    (request k).upload

/-- The request may have its number. -/
def Free (s : State κ) (document : Document) : Prop :=
  ∀ v ∈ s.document.versions, v.versionNo ≠ document.currentVersionNo + 1

instance (s : State κ) (document : Document) : Decidable (Free s document) :=
  inferInstanceAs (Decidable (∀ v ∈ s.document.versions, v.versionNo ≠ document.currentVersionNo + 1))

variable [DecidableEq κ]

def step (s : State κ) : Event κ → State κ
  | .opens k =>
    match s.phase k with
    | .waiting => { s with phase := Function.update s.phase k (.opened s.document) }
    | _ => s
  | .puts k =>
    match s.phase k with
    | .opened document => { s with
        files := putFile s.files (request k).bucket (key contract request k document)
          (request k).upload.content
        phase := Function.update s.phase k (.stored document) }
    | _ => s
  | .fails k => { s with phase := Function.update s.phase k .ended }
  | .commits k =>
    match s.phase k with
    | .stored document =>
      if Free s document then
        { s with
          document := { s.document with
            currentVersionNo := document.currentVersionNo + 1
            versions := s.document.versions ++ [version contract request k document s.nextVersionId]
            updatedAt := (request k).env.now }
          nextVersionId := s.nextVersionId + 1
          phase := Function.update s.phase k .ended
          committed := s.committed ++ [(k, version contract request k document s.nextVersionId)] }
      else { s with phase := Function.update s.phase k .ended }
    | _ => s

/-- The bytes of a committed version are those of the request that committed it. -/
def KeepsBytes (s : State κ) : Prop :=
  ∀ p ∈ s.committed, s.files (request p.1).bucket p.2.storageKey = some (request p.1).upload.content ∧
    p.2.sizeBytes = (request p.1).upload.content.length

/-- A request puts no bytes over other bytes of a request that has committed or still can. -/
def Clear (s : State κ) : Event κ → Prop
  | .puts k => ∀ document, s.phase k = .opened document →
    (∀ p ∈ s.committed, (request p.1).bucket = (request k).bucket →
      p.2.storageKey = key contract request k document →
        (request p.1).upload.content = (request k).upload.content) ∧
    ∀ j d, s.phase j = .stored d → Free s d → (request j).bucket = (request k).bucket →
      key contract request j d = key contract request k document →
        (request j).upload.content = (request k).upload.content
  | _ => True

end

variable {κ : Type u} [DecidableEq κ] {contract : Contract} {request : κ → Request}

/-- A request with nothing in between stores what the service stores. -/
theorem run_alone {env : Env} {documentId : Nat} {w : World} (t : DocumentService.Target env documentId w)
    (k : κ) (hrequest : (request k).env = env ∧ (request k).connectionId = t.connection.id ∧
      (request k).bucket = t.bucket) (hfree : ∀ v ∈ t.document.versions,
      v.versionNo ≠ t.document.currentVersionNo + 1) :
    let s := Runs.run (step t.contract request)
      (⟨t.document, w.db.nextVersionId, w.files, fun _ => .waiting, []⟩ : State κ)
      [.opens k, .puts k, .commits k]
    s.files = t.files (request k).upload ∧
      s.document = t.document.addVersion (newVersion env w.db.nextVersionId t.document t.connection.id
        (storageKey t.contract t.document (request k).upload.filename) (request k).upload) env.now := by
  intro s
  obtain ⟨rfl, hconnection, hbucket⟩ := hrequest
  have hfree' : ∀ s' : State κ, s'.document = t.document → Free s' t.document := by
    intro s' hs' v hv
    exact hfree v (hs' ▸ hv)
  simp only [s, Runs.run_cons, Runs.run_nil, step, Function.update_self]
  rw [if_pos (hfree' _ rfl)]
  simp only [key, version, hconnection, hbucket]
  exact ⟨rfl, rfl⟩

/-! ## One event -/

variable {s : State κ}

/-- What a put changes. -/
theorem step_puts {k : κ} {document : Document} (h : s.phase k = .opened document) :
    step contract request s (.puts k) = { s with
      files := putFile s.files (request k).bucket (key contract request k document)
        (request k).upload.content
      phase := Function.update s.phase k (.stored document) } := by
  simp only [step, h]

/-- What an accepted commit changes. -/
theorem step_commits {k : κ} {document : Document} (h : s.phase k = .stored document)
    (hfree : Free s document) :
    step contract request s (.commits k) = { s with
      document := { s.document with
        currentVersionNo := document.currentVersionNo + 1
        versions := s.document.versions ++ [version contract request k document s.nextVersionId]
        updatedAt := (request k).env.now }
      nextVersionId := s.nextVersionId + 1
      phase := Function.update s.phase k .ended
      committed := s.committed ++ [(k, version contract request k document s.nextVersionId)] } := by
  simp only [step, h, if_pos hfree]

/-- What no put and no accepted commit changes. -/
structure Quiet (s s' : State κ) : Prop where
  document : s'.document = s.document
  files : s'.files = s.files
  committed : s'.committed = s.committed
  stored : ∀ k d, s'.phase k = .stored d → s.phase k = .stored d

omit [DecidableEq κ] in
theorem quiet_refl (s : State κ) : Quiet s s := ⟨rfl, rfl, rfl, fun _ _ h => h⟩

theorem quiet_phase (s : State κ) (k : κ) {phase : Phase} (h : ∀ d, phase ≠ .stored d) :
    Quiet s { s with phase := Function.update s.phase k phase } := by
  refine ⟨rfl, rfl, rfl, fun j d hj => ?_⟩
  change Function.update s.phase k phase j = .stored d at hj
  by_cases hk : j = k
  · subst hk
    rw [Function.update_self] at hj
    exact absurd hj (h d)
  · rwa [Function.update_of_ne hk] at hj

theorem step_cases (contract : Contract) (request : κ → Request) (s : State κ) (e : Event κ) :
    Quiet s (step contract request s e) ∨
      (∃ k document, e = .puts k ∧ s.phase k = .opened document) ∨
      ∃ k document, e = .commits k ∧ s.phase k = .stored document ∧ Free s document := by
  cases e with
  | opens k =>
    left
    cases hk : s.phase k with
    | waiting =>
      simp only [step, hk]
      exact quiet_phase s k fun d => by simp
    | _ =>
      simp only [step, hk]
      exact quiet_refl s
  | puts k =>
    cases hk : s.phase k with
    | opened document => exact Or.inr (Or.inl ⟨k, document, rfl, hk⟩)
    | _ =>
      left
      simp only [step, hk]
      exact quiet_refl s
  | fails k => exact Or.inl (quiet_phase s k fun d => by simp)
  | commits k =>
    cases hk : s.phase k with
    | stored document =>
      by_cases hfree : Free s document
      · exact Or.inr (Or.inr ⟨k, document, rfl, hk, hfree⟩)
      · left
        simp only [step, hk, if_neg hfree]
        exact quiet_phase s k fun d => by simp
    | _ =>
      left
      simp only [step, hk]
      exact quiet_refl s

/-- Committed versions have their bytes, and so have the requests that can still commit. -/
structure Kept (contract : Contract) (request : κ → Request) (s : State κ) : Prop where
  committed : KeepsBytes request s
  pending : ∀ k d, s.phase k = .stored d → Free s d →
    s.files (request k).bucket (key contract request k d) = some (request k).upload.content

theorem kept_puts {k : κ} {document : Document} (h : Kept contract request s)
    (hk : s.phase k = .opened document) (hclear : Clear contract request s (.puts k)) :
    Kept contract request (step contract request s (.puts k)) := by
  obtain ⟨hcommitted, hpending⟩ := hclear document hk
  rw [step_puts hk]
  refine ⟨fun p hp => ?_, fun j d hj hfree => ?_⟩
  · obtain ⟨hbytes, hsize⟩ := h.committed p hp
    exact ⟨putFile_same hbytes (hcommitted p hp), hsize⟩
  · change Function.update s.phase k (.stored document) j = .stored d at hj
    by_cases hjk : j = k
    · subst hjk
      rw [Function.update_self] at hj
      obtain rfl := Phase.stored.inj hj
      exact putFile_self _ _ _ _
    · rw [Function.update_of_ne hjk] at hj
      exact putFile_same (h.pending j d hj hfree) (hpending j d hj hfree)

theorem kept_commits {k : κ} {document : Document} (h : Kept contract request s)
    (hk : s.phase k = .stored document) (hfree : Free s document) :
    Kept contract request (step contract request s (.commits k)) := by
  rw [step_commits hk hfree]
  refine ⟨fun p hp => ?_, fun j d hj hfree' => ?_⟩
  · rcases List.mem_append.mp hp with hp | hp
    · exact h.committed p hp
    · obtain rfl := List.mem_singleton.mp hp
      exact ⟨h.pending k document hk hfree, rfl⟩
  · change Function.update s.phase k .ended j = .stored d at hj
    by_cases hjk : j = k
    · subst hjk
      rw [Function.update_self] at hj
      cases hj
    · rw [Function.update_of_ne hjk] at hj
      exact h.pending j d hj fun v hv => hfree' v (List.mem_append_left _ hv)

theorem kept_step (s : State κ) (e : Event κ) (h : Kept contract request s)
    (hclear : Clear contract request s e) : Kept contract request (step contract request s e) := by
  rcases step_cases contract request s e with hquiet | ⟨k, document, rfl, hk⟩ |
    ⟨k, document, rfl, hk, hfree⟩
  · refine ⟨fun p hp => ?_, fun k d hk hfree => ?_⟩
    · rw [hquiet.files]
      exact h.committed p (hquiet.committed ▸ hp)
    · rw [hquiet.files]
      refine h.pending k d (hquiet.stored k d hk) fun v hv => hfree v ?_
      rw [hquiet.document]
      exact hv
  · exact kept_puts h hk hclear
  · exact kept_commits h hk hfree

/-! ## Interleavings -/

/-- The versions of the document are those that the requests have committed. -/
theorem versions_eq (document : Document) (nextVersionId : Nat)
    (files : Bucket → String → Option Bytes) (events : List (Event κ)) :
    let s := Runs.run (step contract request) (start κ document nextVersionId files) events
    s.document.versions = s.committed.map Prod.snd := by
  refine Runs.run_invariant (I := fun s : State κ => s.document.versions = s.committed.map Prod.snd)
    (fun s e h => ?_) rfl events
  rcases step_cases contract request s e with hquiet | ⟨k, document, rfl, hk⟩ |
    ⟨k, document, rfl, hk, hfree⟩
  · rw [hquiet.document, hquiet.committed]
    exact h
  · rw [step_puts hk]
    exact h
  · rw [step_commits hk hfree]
    simp only [List.map_append, List.map_cons, List.map_nil, h]

/-- In every state of an interleaving whose puts are clear, the versions have the bytes of the
requests that committed them. -/
theorem keepsBytes_run (contract : Contract) (request : κ → Request) (document : Document)
    (nextVersionId : Nat) (files : Bucket → String → Option Bytes) (before after : List (Event κ))
    (h : Runs.Along (step contract request) (Clear contract request)
      (start κ document nextVersionId files) (before ++ after)) :
    KeepsBytes request
      (Runs.run (step contract request) (start κ document nextVersionId files) before) := by
  refine (Runs.run_invariant_along kept_step ⟨?_, ?_⟩ (Runs.along_append.mp h).1).committed
  · intro p hp
    cases hp
  · intro k d hk
    cases hk

/-- A put that is not clear gives a version other bytes, at once or with the commit of the request
whose bytes it has replaced. -/
theorem not_keepsBytes_of_not_clear {k : κ} (h : ¬ Clear contract request s (.puts k)) :
    ¬ KeepsBytes request (step contract request s (.puts k)) ∨
      ∃ j, ¬ KeepsBytes request
        (step contract request (step contract request s (.puts k)) (.commits j)) := by
  simp only [Clear, not_forall] at h
  obtain ⟨document, hk, hnot⟩ := h
  rcases Classical.not_and_iff_not_or_not.mp hnot with hcommitted | hpending
  · left
    simp only [not_forall] at hcommitted
    obtain ⟨p, hp, hbucket, hkey, hdiffer⟩ := hcommitted
    intro hkeeps
    rw [step_puts hk] at hkeeps
    have hbytes := (hkeeps p hp).1
    rw [hbucket, hkey] at hbytes
    exact hdiffer (Option.some.inj (hbytes.symm.trans (putFile_self _ _ _ _)))
  · right
    simp only [not_forall] at hpending
    obtain ⟨j, d, hj, hfree, hbucket, hkey, hdiffer⟩ := hpending
    refine ⟨j, fun hkeeps => ?_⟩
    have hjk : j ≠ k := by
      rintro rfl
      rw [hk] at hj
      cases hj
    have hstored : (step contract request s (.puts k)).phase j = .stored d := by
      rw [step_puts hk]
      exact (Function.update_of_ne hjk _ _).trans hj
    have hfree' : Free (step contract request s (.puts k)) d := by
      rw [step_puts hk]
      exact hfree
    rw [step_commits hstored hfree'] at hkeeps
    have hbytes := (hkeeps _ (List.mem_append_right _ List.mem_cons_self)).1
    change (step contract request s (.puts k)).files (request j).bucket (key contract request j d) = _
      at hbytes
    rw [step_puts hk, hbucket, hkey] at hbytes
    exact hdiffer (Option.some.inj (hbytes.symm.trans (putFile_self _ _ _ _)))

/-! ## Drafts -/

/-- Request `k` uploads the byte `k` under its name. -/
def drafts (filename : Nat → String) (k : Nat) : Request :=
  ⟨.offline k "", 1, .disk "storage/", ⟨[UInt8.ofNat k], filename k, "application/pdf", "alice", none,
    none, none⟩⟩

def lease : Contract := ⟨1, 1, "Lease", none, "Lease", none, none, .empty, 0, 0⟩

def annex : Document := ⟨1, 1, "Annex", 0, none, none, 0, 0, []⟩

def draftsAfter (filename : Nat → String) (events : List (Event Nat)) : State Nat :=
  Runs.run (step lease (drafts filename)) (start Nat annex 1 fun _ _ => none) events

def ownNames (k : Nat) : String := if k = 0 then "draft.pdf" else "notes.pdf"

/-- Both uploads read the document without versions and store their bytes before one of them commits. -/
theorem keepsBytes_ownNames :
    KeepsBytes (drafts ownNames)
      (draftsAfter ownNames [.opens 0, .opens 1, .puts 0, .puts 1, .commits 0, .commits 1]) := by
  refine keepsBytes_run lease (drafts ownNames) annex 1 (fun _ _ => none)
    [.opens 0, .opens 1, .puts 0, .puts 1, .commits 0, .commits 1] [] ?_
  refine ⟨trivial, trivial, ?_, ?_, trivial, trivial, trivial⟩
  · intro document _
    refine ⟨fun p hp => (by cases hp), fun j d hj => ?_⟩
    change Function.update (Function.update (fun _ => Phase.waiting) 0 _) 1 _ j = _ at hj
    rcases eq_or_ne j 1 with rfl | hne
    · cases hj
    · rw [Function.update_of_ne hne] at hj
      rcases eq_or_ne j 0 with rfl | hne'
      · cases hj
      · rw [Function.update_of_ne hne'] at hj
        cases hj
  · intro document hk
    obtain rfl := Phase.opened.inj hk
    refine ⟨fun p hp => (by cases hp), fun j d hj _ _ hkey => ?_⟩
    change Function.update (Function.update (Function.update (fun _ => Phase.waiting) 0 _) 1 _) 0 _ j = _ at hj
    rcases eq_or_ne j 0 with rfl | hne
    · obtain rfl := Phase.stored.inj hj
      exact absurd hkey (by decide)
    · rw [Function.update_of_ne hne] at hj
      rcases eq_or_ne j 1 with rfl | hne'
      · cases hj
      · rw [Function.update_of_ne hne', Function.update_of_ne hne] at hj
        cases hj

/-- Both uploads read the document without versions; the second one puts its byte under the key of
the version that the first one has committed. -/
theorem not_keepsBytes_sameName :
    ¬ KeepsBytes (drafts fun _ => "draft.pdf")
      (draftsAfter (fun _ => "draft.pdf") [.opens 0, .opens 1, .puts 0, .commits 0, .puts 1]) := by
  intro h
  have hbytes := (h (0, version lease (drafts fun _ => "draft.pdf") 0 annex 1) (by exact List.mem_cons_self)).1
  exact absurd hbytes (by decide)

end Orchestract.ConcurrentUploads
