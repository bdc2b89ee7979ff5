import Orchestract.Isolation.Tenant
import Orchestract.Web.Missing

/-!
# The database of one organization alone

`onlyOf` erases the rows, sessions and files of all the other organizations. Two states agree on
an organization exactly when nothing is left of their difference. A read by a condition on the
organization gives the same in both; a read by an id gives the same unless the id is that of an
erased row.
-/

namespace Orchestract

set_option autoImplicit false

def Database.userOwner (db : Database) (userId : Nat) : Option Nat :=
  (db.users.get userId).map (fun u => u.organizationId)

/-- The sessions of the organization's users. -/
def ownSessions (A : Nat) (db : Database) : List UserSession :=
  db.sessions.select (fun s => db.userOwner s.userId = some A)

def ownAcceptances (A : Nat) (db : Database) : List TermsAcceptance :=
  db.acceptances.select (fun a => db.userOwner a.userId = some A)

/-- A version of one of the organization's documents is kept here. -/
def ownFile (env : Env) (A : Nat) (w : World) (bucket : Bucket) (key : String) : Bool :=
  (rowsOf A w.db).documents.any fun d => d.versions.any fun version =>
    (rowsOf A w.db).connections.any fun c =>
      c.id = version.storageConnectionId && version.storageKey = key &&
        (buildFileStorage env c (c.credential.getD .empty) w).toOption = some bucket

structure AgreeOn (env : Env) (A : Nat) (w₁ w₂ : World) : Prop where
  rows : rowsOf A w₁.db = rowsOf A w₂.db
  sessions : ownSessions A w₁.db = ownSessions A w₂.db
  acceptances : ownAcceptances A w₁.db = ownAcceptances A w₂.db
  files : ∀ bucket key, ownFile env A w₁ bucket key = true → w₁.files bucket key = w₂.files bucket key

section

variable {α : Type} [Row α] [Stored α] [Owned α]

def ownTable (α : Type) [Row α] [Stored α] [Owned α] (A : Nat) (db : Database) : Table α :=
  (Stored.table db).restrict (fun a => Owned.owner db a = some A)

theorem ownTable_congr {A : Nat} {db₁ db₂ : Database} (h : rowsOf A db₁ = rowsOf A db₂) :
    ownTable α A db₁ = ownTable α A db₂ := by
  apply Table.restrict_congr
  rw [← Owned.rows_rowsOf A db₁, ← Owned.rows_rowsOf A db₂, h]

end

def onlyOf (env : Env) (A : Nat) (w : World) : World where
  db := {
    organizations := w.db.organizations.restrict (fun o => Row.id o = A)
    users := ownTable User A w.db
    roles := ownTable Role A w.db
    agents := ownTable Agent A w.db
    definitions := ownTable WorkflowDefinition A w.db
    contracts := ownTable Contract A w.db
    documents := ownTable Document A w.db
    instances := ownTable WorkflowInstance A w.db
    shareLinks := ownTable ShareLink A w.db
    connections := ownTable StorageConnection A w.db
    sessions := w.db.sessions.restrict (fun s => w.db.userOwner s.userId = some A)
    acceptances := w.db.acceptances.restrict (fun a => w.db.userOwner a.userId = some A)
    nextVersionId := 1 }
  files bucket key := if ownFile env A w bucket key then w.files bucket key else none

theorem buildFileStorage_world (env : Env) (c : StorageConnection) (secrets : StorageSecrets)
    (w w' : World) : buildFileStorage env c secrets w = buildFileStorage env c secrets w' := by
  have hkey : ∀ {α : Type} (value : Option α), Read.Agree w w' (lookupKey value) := fun value => by
    cases value <;> rfl
  change Read.Agree w w' (buildFileStorage env c secrets)
  unfold buildFileStorage
  cases c.provider with
  | «local» => exact Read.agree_pure _ _ _
  | s3 =>
    exact Read.agree_bind (hkey _) fun _ _ _ => Read.agree_bind (hkey _) fun _ _ _ =>
      Read.agree_bind (hkey _) fun _ _ _ => Read.agree_pure _ _ _
  | minio =>
    exact Read.agree_bind (hkey _) fun _ _ _ => Read.agree_bind (hkey _) fun _ _ _ =>
      Read.agree_bind (hkey _) fun _ _ _ => Read.agree_bind (hkey _) fun _ _ _ => Read.agree_pure _ _ _
  | gcs =>
    exact Read.agree_bind (hkey _) fun _ _ _ => Read.agree_bind (hkey _) fun _ _ _ =>
      Read.agree_pure _ _ _
  | googleDrive => exact Read.agree_throw _ _ _
  | onedrive => exact Read.agree_throw _ _ _

theorem ownFile_congr {env : Env} {A : Nat} {w₁ w₂ : World} (h : rowsOf A w₁.db = rowsOf A w₂.db)
    (bucket : Bucket) (key : String) : ownFile env A w₁ bucket key = ownFile env A w₂ bucket key := by
  have hworld : ∀ c : StorageConnection, buildFileStorage env c (c.credential.getD .empty) w₁ =
      buildFileStorage env c (c.credential.getD .empty) w₂ :=
    fun c => buildFileStorage_world env c _ w₁ w₂
  unfold ownFile
  simp only [h, hworld]

/-- Two states that agree on the organization are one state once the others are erased. -/
theorem onlyOf_eq_of_agreeOn {env : Env} {A : Nat} {w₁ w₂ : World} (h : AgreeOn env A w₁ w₂) :
    onlyOf env A w₁ = onlyOf env A w₂ := by
  have horganizations : w₁.db.organizations.restrict (fun o => Row.id o = A) =
      w₂.db.organizations.restrict (fun o => Row.id o = A) := by
    apply Table.restrict_congr
    have hget : w₁.db.organizations.get A = w₂.db.organizations.get A :=
      congrArg TenantRows.organization h.rows
    rw [Table.select_id, Table.select_id, hget]
  have hsessions : w₁.db.sessions.restrict (fun s => w₁.db.userOwner s.userId = some A) =
      w₂.db.sessions.restrict (fun s => w₂.db.userOwner s.userId = some A) :=
    Table.restrict_congr h.sessions
  have hacceptances : w₁.db.acceptances.restrict (fun a => w₁.db.userOwner a.userId = some A) =
      w₂.db.acceptances.restrict (fun a => w₂.db.userOwner a.userId = some A) :=
    Table.restrict_congr h.acceptances
  have hfiles : (fun bucket key => if ownFile env A w₁ bucket key then w₁.files bucket key else none) =
      (fun bucket key => if ownFile env A w₂ bucket key then w₂.files bucket key else none) := by
    funext bucket key
    rw [← ownFile_congr h.rows bucket key]
    split
    · exact h.files bucket key ‹_›
    · rfl
  unfold onlyOf
  rw [horganizations, hsessions, hacceptances, hfiles, ownTable_congr h.rows, ownTable_congr h.rows,
    ownTable_congr h.rows, ownTable_congr h.rows, ownTable_congr h.rows, ownTable_congr h.rows,
    ownTable_congr h.rows, ownTable_congr h.rows, ownTable_congr h.rows]

/-! ## Tables of the erased database -/

/-- A mapped class whose rows of other organizations are erased. -/
class Erased (α : Type) [Row α] [Stored α] [Owned α] : Prop where
  table_onlyOf : ∀ (env : Env) (A : Nat) (w : World),
    (Stored.table (onlyOf env A w).db : Table α) = ownTable α A w.db

instance : Erased User := ⟨fun _ _ _ => rfl⟩

instance : Erased Role := ⟨fun _ _ _ => rfl⟩

instance : Erased Agent := ⟨fun _ _ _ => rfl⟩

instance : Erased WorkflowDefinition := ⟨fun _ _ _ => rfl⟩

instance : Erased Contract := ⟨fun _ _ _ => rfl⟩

instance : Erased Document := ⟨fun _ _ _ => rfl⟩

instance : Erased WorkflowInstance := ⟨fun _ _ _ => rfl⟩

instance : Erased ShareLink := ⟨fun _ _ _ => rfl⟩

instance : Erased StorageConnection := ⟨fun _ _ _ => rfl⟩

/-- The row of this id, if there is one, is the organization's. -/
def OwnRow (A : Nat) (w : World) (α : Type) [Row α] [Stored α] [Owned α] (id : Nat) : Prop :=
  ∀ a : α, (Stored.table w.db).get id = some a → Owned.owner w.db a = some A

instance (A : Nat) (w : World) (α : Type) [Row α] [Stored α] [Owned α] (id : Nat) :
    Decidable (OwnRow A w α id) :=
  decidable_of_iff (∀ a ∈ (Stored.table w.db).get id, Owned.owner (α := α) w.db a = some A) Iff.rfl

section

variable {α : Type} [Row α] [Stored α] [Owned α] [Erased α] (env : Env) {A : Nat} {w : World}

theorem get_onlyOf (A : Nat) (w : World) (id : Nat) :
    ((Stored.table (onlyOf env A w).db).get id : Option α) =
      ((Stored.table w.db).get id : Option α).filter (fun a => Owned.owner w.db a = some A) := by
  rw [Erased.table_onlyOf]
  exact Table.get_restrict _ _ _

theorem agree_select {p : α → Bool}
    (h : ∀ a ∈ (Stored.table w.db).rows, p a = true → Owned.owner w.db a = some A) :
    Read.Agree w (onlyOf env A w) (select p : Query (List α)) := by
  change Except.ok _ = Except.ok _
  rw [Erased.table_onlyOf]
  refine congrArg Except.ok (Table.select_restrict_of_imp fun a ha hp => ?_).symm
  simpa using h a ha hp

theorem get_onlyOf_own {id : Nat} (h : OwnRow A w α id) :
    ((Stored.table (onlyOf env A w).db).get id : Option α) = (Stored.table w.db).get id := by
  rw [get_onlyOf]
  cases hget : ((Stored.table w.db).get id : Option α) with
  | none => rfl
  | some a => exact Option.filter_some_pos (by simpa using h a hget)

theorem agree_require (what : String) {id : Nat} (h : OwnRow A w α id) :
    Read.Agree w (onlyOf env A w) (require what id : Query α) := by
  change (require what id : Query α) w = (require what id : Query α) (onlyOf env A w)
  rw [require_eq, require_eq, get_onlyOf_own env h]

/-- An erased row is reported as missing. -/
theorem require_erased (what : String) {id : Nat} (h : ¬ OwnRow A w α id) :
    (∃ a : α, (Stored.table w.db).get id = some a) ∧
      (require what id : Query α) (onlyOf env A w) = .error (.raised (.missing what id)) := by
  unfold OwnRow at h
  push Not at h
  obtain ⟨a, hget, how⟩ := h
  refine ⟨⟨a, hget⟩, ?_⟩
  rw [require_eq, get_onlyOf, hget, Option.filter_some_neg (by simpa using how)]

end

/-! ## The erased database agrees with the whole one -/

theorem contractOwner_onlyOf (env : Env) (A : Nat) (w : World) (contractId : Nat) :
    (onlyOf env A w).db.contractOwner contractId = some A ↔ w.db.contractOwner contractId = some A := by
  have hget : (onlyOf env A w).db.contracts.get contractId =
      (w.db.contracts.get contractId).filter (fun c => Owned.owner w.db c = some A) :=
    get_onlyOf env A w contractId
  unfold Database.contractOwner
  rw [hget]
  cases w.db.contracts.get contractId with
  | none => rfl
  | some c =>
    by_cases hc : c.organizationId = A
    · rw [Option.filter_some_pos (by simp [Owned.owner, hc])]
    · rw [Option.filter_some_neg (by simp [Owned.owner, hc])]
      simp [hc]

theorem userOwner_onlyOf (env : Env) (A : Nat) (w : World) (userId : Nat) :
    (onlyOf env A w).db.userOwner userId = some A ↔ w.db.userOwner userId = some A := by
  have hget : (onlyOf env A w).db.users.get userId =
      (w.db.users.get userId).filter (fun u => Owned.owner w.db u = some A) :=
    get_onlyOf env A w userId
  unfold Database.userOwner
  rw [hget]
  cases w.db.users.get userId with
  | none => rfl
  | some u =>
    by_cases hu : u.organizationId = A
    · rw [Option.filter_some_pos (by simp [Owned.owner, hu])]
    · rw [Option.filter_some_neg (by simp [Owned.owner, hu])]
      simp [hu]

theorem rows_onlyOf {α : Type} [Row α] [Stored α] [Owned α] [Erased α] (env : Env) (A : Nat)
    (w : World) (h : ∀ a : α, Owned.owner (onlyOf env A w).db a = some A ↔ Owned.owner w.db a = some A) :
    (Owned.rows (rowsOf A w.db) : List α) = Owned.rows (rowsOf A (onlyOf env A w).db) := by
  rw [Owned.rows_rowsOf, Owned.rows_rowsOf, Erased.table_onlyOf]
  simp only [h]
  exact (Table.select_restrict_of_imp fun _ _ hp => hp).symm

/-- Erasing the other organizations leaves a state that agrees with the whole one. -/
theorem agreeOn_onlyOf (env : Env) (A : Nat) (w : World) : AgreeOn env A w (onlyOf env A w) where
  rows := by
    have hc := contractOwner_onlyOf env A w
    ext1
    · change w.db.organizations.get A = (w.db.organizations.restrict (fun o => Row.id o = A)).get A
      rw [Table.get_restrict]
      cases hget : w.db.organizations.get A with
      | none => rfl
      | some o =>
        have hid := (Table.get_eq_some_iff.mp hget).2
        exact (Option.filter_some_pos (by simpa using hid)).symm
    · exact rows_onlyOf (α := User) env A w fun _ => Iff.rfl
    · exact rows_onlyOf (α := Role) env A w fun _ => Iff.rfl
    · exact rows_onlyOf (α := Agent) env A w fun _ => Iff.rfl
    · exact rows_onlyOf (α := WorkflowDefinition) env A w fun _ => Iff.rfl
    · exact rows_onlyOf (α := Contract) env A w fun _ => Iff.rfl
    · exact rows_onlyOf (α := Document) env A w fun d => hc d.contractId
    · exact rows_onlyOf (α := WorkflowInstance) env A w fun i => hc i.contractId
    · exact rows_onlyOf (α := ShareLink) env A w fun l => hc l.contractId
    · exact rows_onlyOf (α := StorageConnection) env A w fun _ => Iff.rfl
  sessions := by
    unfold ownSessions
    simp only [userOwner_onlyOf]
    exact (Table.select_restrict_of_imp fun _ _ hp => hp).symm
  acceptances := by
    unfold ownAcceptances
    simp only [userOwner_onlyOf]
    exact (Table.select_restrict_of_imp fun _ _ hp => hp).symm
  files := by
    intro bucket key hown
    change w.files bucket key = if ownFile env A w bucket key then w.files bucket key else none
    rw [if_pos hown]

end Orchestract
