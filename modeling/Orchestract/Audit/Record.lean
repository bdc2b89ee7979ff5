import Orchestract.Accounts.Sessions
import Orchestract.Documents.Versions
import Orchestract.Library.Growth
import Orchestract.Sharing.Links
import Orchestract.Workflow.StoredRuns

/-!
# What the record keeps

Versions of documents, histories of contracts, consents and the terms of share links are the record
of an organization. In every history they are only ever added to: no row is lost, nothing that was
written is written over, and the versions of a document are numbered without a gap.
-/

namespace Orchestract

set_option autoImplicit false

/-! ## Rows that go on -/

/-- The person behind an account. -/
structure User.SamePerson (u u' : User) : Prop where
  organizationId : u'.organizationId = u.organizationId
  email : u'.email = u.email
  verified : u.isEmailVerified = true → u'.isEmailVerified = true

/-- The history goes on, until the workflow is completed. -/
structure WorkflowInstance.Continues (i i' : WorkflowInstance) : Prop where
  contractId : i'.contractId = i.contractId
  workflowDefinitionId : i'.workflowDefinitionId = i.workflowDefinitionId
  history : i.history <+: i'.history
  completed : i.status = .completed → i' = i

/-- The versions have the numbers from one to the current one. -/
structure Document.Numbered (d : Document) : Prop where
  versions : d.versions.map (fun v => v.versionNo) = List.range' 1 d.versions.length
  current : d.currentVersionNo = d.versions.length

theorem User.samePerson_refl (u : User) : u.SamePerson u := ⟨rfl, rfl, fun hu => hu⟩

theorem User.samePerson_trans {u u₁ u' : User} (h : u.SamePerson u₁) (h' : u₁.SamePerson u') : u.SamePerson u' :=
  ⟨h'.organizationId.trans h.organizationId, h'.email.trans h.email, fun hu => h'.verified (h.verified hu)⟩

/-! ## Documents -/

theorem numbered_new {d : Document} (hversions : d.versions = []) (hcurrent : d.currentVersionNo = 0) :
    d.Numbered := by
  constructor
  · rw [hversions]
    rfl
  · rw [hversions, hcurrent]
    rfl

theorem numbered_addVersion {d : Document} (h : d.Numbered) (v : DocumentVersion) (now : Nat) :
    (d.addVersion v now).Numbered := by
  have hlength : (d.addVersion v now).versions.length = d.versions.length + 1 := List.length_append
  constructor
  · rw [hlength, List.range'_concat, ← h.versions]
    simp only [Document.addVersion, List.map_append, List.map_cons, List.map_nil, h.current, Nat.one_mul,
      Nat.add_comm]
  · rw [hlength, ← h.current]
    rfl

theorem numbered_perform {s : System} {i : Input} (h : ∀ d ∈ s.world.db.documents.rows, d.Numbered) :
    ∀ d ∈ (perform s i).world.db.documents.rows, d.Numbered := by
  refine perform_documents (I := fun t _ => ∀ d ∈ t.rows, d.Numbered) ?_ ?_ ?_ h
  · intro t t' _ d new ht hversions hcurrent hinsert b hb
    rcases (Table.mem_insert_iff hinsert).mp hb with hb | rfl
    · exact ht b hb
    · obtain ⟨hnew, _⟩ := Table.insert_eq_some hinsert
      rw [hnew]
      exact numbered_new hversions hcurrent
  · intro t t' _ d d' ht hd _ hversions hcurrent hupdate b hb
    rcases Table.mem_update hupdate hb with rfl | ⟨hb, _⟩
    · obtain ⟨hnumbers, hlast⟩ := ht d hd
      exact ⟨by rw [hversions]; exact hnumbers, by rw [hversions, hcurrent]; exact hlast⟩
    · exact ht b hb
  · intro t t' _ d v now ht hd _ hupdate b hb
    rcases Table.mem_update hupdate hb with rfl | ⟨hb, _⟩
    · exact numbered_addVersion (ht d hd) v now
    · exact ht b hb

/-- The versions of a document are those it had, and later ones. -/
theorem versions_perform (s : System) (i : Input) : s.world.db.documents.Grows
    (fun d d' => d.versions <+: d'.versions) (perform s i).world.db.documents := by
  let R : Document → Document → Prop := fun d d' => d.versions <+: d'.versions
  have refl : ∀ d, R d d := fun d => List.prefix_refl d.versions
  have trans : ∀ {a b c}, R a b → R b c → R a c := fun h h' => h.trans h'
  refine perform_documents (I := fun t _ => s.world.db.documents.Grows R t) ?_ ?_ ?_ (Table.grows_refl refl _)
  · intro t t' _ d new ht _ _ hinsert
    exact Table.grows_trans trans ht (Table.grows_insert refl hinsert)
  · intro t t' _ d d' ht hd hid hversions _ hupdate
    have hR : R d d' := by
      change d.versions <+: d'.versions
      rw [hversions]
    exact Table.grows_trans trans ht (Table.grows_update refl hupdate hd hid hR)
  · intro t t' _ d v now ht hd _ hupdate
    exact Table.grows_trans trans ht (Table.grows_update refl hupdate hd rfl (List.prefix_append _ _))

/-! ## Persons and workflows -/

theorem users_committed {i : Input} {w w' : World} (h : Committed i w w') :
    w.db.users.Grows User.SamePerson w'.db.users := by
  cases h with
  | newAccount _ _ _ _ _ hu _ _ _ => exact Table.grows_insert User.samePerson_refl hu
  | newUser _ _ _ hu _ => exact Table.grows_insert User.samePerson_refl hu
  | user hu edit _ hupdate =>
    exact Table.grows_update User.samePerson_refl hupdate hu edit.id ⟨edit.organizationId, edit.email, edit.verified⟩
  | _ => exact Table.grows_refl User.samePerson_refl _

theorem users_next (s : System) (c : Change) : s.world.db.users.Grows User.SamePerson (s.next c).world.db.users := by
  cases c with
  | call i =>
    exact perform_invariant (I := fun w => s.world.db.users.Grows User.SamePerson w.db.users)
      (fun _ _ h hstep => Table.grows_trans User.samePerson_trans h (users_committed hstep))
      (Table.grows_refl User.samePerson_refl _)
  | _ => exact Table.grows_of_eq User.samePerson_refl (next_same (n := .users) (by simp [Change.footprint]))

/-- What calls lead to continues what there was. -/
theorem continues_run (d : WorkflowDefinition) (i : WorkflowInstance) (calls : List WorkflowInstance.Call) :
    i.Continues (Runs.run (WorkflowInstance.attempt d) i calls) := by
  obtain ⟨_, hcontract, hdefinition⟩ := WorkflowInstance.run_identity d i calls
  exact ⟨hcontract, hdefinition, WorkflowInstance.history_prefix i calls,
    fun hcompleted => WorkflowInstance.run_of_completed hcompleted calls⟩

/-! ## Histories -/

/-- What the record of a world is in a later one. -/
structure World.Records (w w' : World) : Prop where
  rows : w.Holds w'
  users : w.db.users.Grows User.SamePerson w'.db.users
  versions : w.db.documents.Grows (fun d d' => d.versions <+: d'.versions) w'.db.documents
  instances : w.db.instances.Grows WorkflowInstance.Continues w'.db.instances
  acceptances : w.db.acceptances.rows <+: w'.db.acceptances.rows
  shareLinks : w.LinksContinue w'

theorem versions_next (s : System) (c : Change) : s.world.db.documents.Grows
    (fun d d' => d.versions <+: d'.versions) (s.next c).world.db.documents := by
  cases c with
  | call i => exact versions_perform s i
  | _ =>
    exact Table.grows_of_eq (fun d => List.prefix_refl d.versions)
      (next_same (n := .documents) (by simp [Change.footprint]))

theorem numbered_of_eq {t t' : Table Document} (h : t' = t) (ht : ∀ d ∈ t.rows, d.Numbered) :
    ∀ d ∈ t'.rows, d.Numbered := h ▸ ht

theorem numbered_after (files : Bucket → String → Option Bytes) (changes : List Change) :
    ∀ d ∈ (System.after files changes).world.db.documents.rows, d.Numbered := by
  refine Runs.run_invariant (I := fun s : System => ∀ d ∈ s.world.db.documents.rows, d.Numbered) ?_
    (fun d hd => by cases hd) changes
  intro s c hs
  cases c with
  | call i => exact numbered_perform hs
  | _ => exact numbered_of_eq (next_same (n := .documents) (by simp [Change.footprint])) hs

theorem records_run {s : System} (hs : s.world.Lived) (more : List Change) :
    s.world.Records (Runs.run System.next s more).world where
  rows := holds_run s more
  users := Runs.run_relates (R := fun s s' : System => s.world.db.users.Grows User.SamePerson s'.world.db.users)
    (fun _ => Table.grows_refl User.samePerson_refl _) (Table.grows_trans User.samePerson_trans) users_next s more
  versions := Runs.run_relates (R := fun s s' : System => s.world.db.documents.Grows
      (fun d d' => d.versions <+: d'.versions) s'.world.db.documents)
    (fun _ => Table.grows_refl (fun d => List.prefix_refl d.versions) _)
    (Table.grows_trans fun h h' => h.trans h') versions_next s more
  instances := by
    intro id i hi
    obtain ⟨hmem, hid⟩ := Table.get_eq_some_iff.mp hi
    obtain ⟨d, hd, hleft, _⟩ := hs i hmem
    obtain ⟨i', hi', hid', calls, rfl⟩ := (World.goesOn_run s more).instances i hmem d hd hleft
    exact ⟨_, Table.get_eq_some_iff.mpr ⟨hi', hid'.trans hid⟩, continues_run d i calls⟩
  acceptances := Runs.run_relates (R := fun s s' : System => s.world.db.acceptances.rows <+: s'.world.db.acceptances.rows)
    (fun _ => List.prefix_refl _) (fun h h' => h.trans h')
    (fun s c => by rw [acceptances_next]; exact List.prefix_append _ _) s more
  shareLinks := linksContinue_run s more

/-- Whatever is called afterwards, nothing of the record is lost or written over: accounts stay those
of the same persons, versions and histories are added to at their ends, a completed contract stays as
it is, consents and the terms of links stand, and documents have their versions under the numbers
from one on. -/
theorem record_kept (files : Bucket → String → Option Bytes) (changes more : List Change) :
    (System.after files changes).world.Records (System.after files (changes ++ more)).world ∧
      ∀ d ∈ (System.after files changes).world.db.documents.rows, d.Numbered := by
  refine ⟨?_, numbered_after files changes⟩
  rw [System.after, System.after, Runs.run_append]
  exact records_run (World.lived_after files changes) more

end Orchestract
