import Orchestract.Infrastructure.Database

/-!
# The rows of a tenant

A row belongs to the organization it names, or to the organization of the contract it names.
`rowsOf` collects what belongs to one organization; an `INSERT` or `UPDATE` of a row of another
organization leaves it as it is.
-/

namespace Orchestract

set_option autoImplicit false

/-- The organization of a contract. -/
def Database.contractOwner (db : Database) (contractId : Nat) : Option Nat :=
  (db.contracts.get contractId).map (fun c => c.organizationId)

@[ext] structure TenantRows where
  organization : Option Organization
  users : List User
  roles : List Role
  agents : List Agent
  definitions : List WorkflowDefinition
  contracts : List Contract
  documents : List Document
  instances : List WorkflowInstance
  shareLinks : List ShareLink
  connections : List StorageConnection
deriving DecidableEq

def rowsOf (organizationId : Nat) (db : Database) : TenantRows where
  organization := db.organizations.get organizationId
  users := db.users.select (fun u => u.organizationId = organizationId)
  roles := db.roles.select (fun r => r.organizationId = organizationId)
  agents := db.agents.select (fun a => a.organizationId = organizationId)
  definitions := db.definitions.select (fun d => d.organizationId = organizationId)
  contracts := db.contracts.select (fun c => c.organizationId = organizationId)
  documents := db.documents.select (fun d => db.contractOwner d.contractId = some organizationId)
  instances := db.instances.select (fun i => db.contractOwner i.contractId = some organizationId)
  shareLinks := db.shareLinks.select (fun l => db.contractOwner l.contractId = some organizationId)
  connections := db.connections.select (fun c => c.organizationId = organizationId)

/-- A mapped class whose rows belong to organizations. -/
class Owned (α : Type) [Row α] [Stored α] where
  owner : Database → α → Option Nat
  owner_withId : ∀ (db : Database) (n : Nat) (a : α), owner db (Row.withId n a) = owner db a
  rows : TenantRows → List α
  rows_rowsOf : ∀ (organizationId : Nat) (db : Database),
    rows (rowsOf organizationId db) =
      (Stored.table db).select (fun a => owner db a = some organizationId)
  rowsOf_insert : ∀ {organizationId : Nat} {db : Database} {a new : α} {t : Table α},
    (Stored.table db).insert a = some (new, t) → owner db new ≠ some organizationId →
    rowsOf organizationId (Stored.withTable db t) = rowsOf organizationId db
  rowsOf_update : ∀ {organizationId : Nat} {db : Database} {a : α} {t : Table α},
    (Stored.table db).update a = some t →
    (∀ r ∈ (Stored.table db).rows, Row.id r = Row.id a → owner db r ≠ some organizationId) →
    owner db a ≠ some organizationId →
    rowsOf organizationId (Stored.withTable db t) = rowsOf organizationId db

section

variable {α κ : Type} [Row α] [DecidableEq κ] {t t' : Table α} {a new : α} {k : κ}

theorem select_owned_insert (owner : α → κ) (h : t.insert a = some (new, t')) (hn : owner new ≠ k) :
    t'.select (fun r => owner r = k) = t.select (fun r => owner r = k) :=
  Table.select_insert h (by simpa using hn)

theorem select_owned_update (owner : α → κ) (h : t.update a = some t')
    (hb : ∀ r ∈ t.rows, Row.id r = Row.id a → owner r ≠ k) (ha : owner a ≠ k) :
    t'.select (fun r => owner r = k) = t.select (fun r => owner r = k) :=
  Table.select_update h (fun r hr hid => by simpa using hb r hr hid) (by simpa using ha)

end

theorem ne_of_some_ne {m n : Nat} (h : some m ≠ some n) : m ≠ n := fun heq => h (congrArg some heq)

instance : Owned User where
  owner _ u := some u.organizationId
  owner_withId _ _ _ := rfl
  rows := TenantRows.users
  rows_rowsOf _ _ := by simp [rowsOf, Stored.table]
  rowsOf_insert {organizationId db _ _ _} h hn :=
    congrArg (fun rows => { rowsOf organizationId db with users := rows })
      (select_owned_insert User.organizationId h (ne_of_some_ne hn))
  rowsOf_update {organizationId db _ _} h hb ha :=
    congrArg (fun rows => { rowsOf organizationId db with users := rows })
      (select_owned_update User.organizationId h (fun r hr hid => ne_of_some_ne (hb r hr hid))
        (ne_of_some_ne ha))

instance : Owned Role where
  owner _ r := some r.organizationId
  owner_withId _ _ _ := rfl
  rows := TenantRows.roles
  rows_rowsOf _ _ := by simp [rowsOf, Stored.table]
  rowsOf_insert {organizationId db _ _ _} h hn :=
    congrArg (fun rows => { rowsOf organizationId db with roles := rows })
      (select_owned_insert Role.organizationId h (ne_of_some_ne hn))
  rowsOf_update {organizationId db _ _} h hb ha :=
    congrArg (fun rows => { rowsOf organizationId db with roles := rows })
      (select_owned_update Role.organizationId h (fun r hr hid => ne_of_some_ne (hb r hr hid))
        (ne_of_some_ne ha))

instance : Owned Agent where
  owner _ a := some a.organizationId
  owner_withId _ _ _ := rfl
  rows := TenantRows.agents
  rows_rowsOf _ _ := by simp [rowsOf, Stored.table]
  rowsOf_insert {organizationId db _ _ _} h hn :=
    congrArg (fun rows => { rowsOf organizationId db with agents := rows })
      (select_owned_insert Agent.organizationId h (ne_of_some_ne hn))
  rowsOf_update {organizationId db _ _} h hb ha :=
    congrArg (fun rows => { rowsOf organizationId db with agents := rows })
      (select_owned_update Agent.organizationId h (fun r hr hid => ne_of_some_ne (hb r hr hid))
        (ne_of_some_ne ha))

instance : Owned WorkflowDefinition where
  owner _ d := some d.organizationId
  owner_withId _ _ _ := rfl
  rows := TenantRows.definitions
  rows_rowsOf _ _ := by simp [rowsOf, Stored.table]
  rowsOf_insert {organizationId db _ _ _} h hn :=
    congrArg (fun rows => { rowsOf organizationId db with definitions := rows })
      (select_owned_insert WorkflowDefinition.organizationId h (ne_of_some_ne hn))
  rowsOf_update {organizationId db _ _} h hb ha :=
    congrArg (fun rows => { rowsOf organizationId db with definitions := rows })
      (select_owned_update WorkflowDefinition.organizationId h (fun r hr hid => ne_of_some_ne (hb r hr hid))
        (ne_of_some_ne ha))

instance : Owned StorageConnection where
  owner _ c := some c.organizationId
  owner_withId _ _ _ := rfl
  rows := TenantRows.connections
  rows_rowsOf _ _ := by simp [rowsOf, Stored.table]
  rowsOf_insert {organizationId db _ _ _} h hn :=
    congrArg (fun rows => { rowsOf organizationId db with connections := rows })
      (select_owned_insert StorageConnection.organizationId h (ne_of_some_ne hn))
  rowsOf_update {organizationId db _ _} h hb ha :=
    congrArg (fun rows => { rowsOf organizationId db with connections := rows })
      (select_owned_update StorageConnection.organizationId h (fun r hr hid => ne_of_some_ne (hb r hr hid))
        (ne_of_some_ne ha))

instance : Owned Document where
  owner db d := db.contractOwner d.contractId
  owner_withId _ _ _ := rfl
  rows := TenantRows.documents
  rows_rowsOf _ _ := rfl
  rowsOf_insert {organizationId db _ _ _} h hn :=
    congrArg (fun rows => { rowsOf organizationId db with documents := rows })
      (select_owned_insert (fun d : Document => db.contractOwner d.contractId) h hn)
  rowsOf_update {organizationId db _ _} h hb ha :=
    congrArg (fun rows => { rowsOf organizationId db with documents := rows })
      (select_owned_update (fun d : Document => db.contractOwner d.contractId) h hb ha)

instance : Owned WorkflowInstance where
  owner db i := db.contractOwner i.contractId
  owner_withId _ _ _ := rfl
  rows := TenantRows.instances
  rows_rowsOf _ _ := rfl
  rowsOf_insert {organizationId db _ _ _} h hn :=
    congrArg (fun rows => { rowsOf organizationId db with instances := rows })
      (select_owned_insert (fun i : WorkflowInstance => db.contractOwner i.contractId) h hn)
  rowsOf_update {organizationId db _ _} h hb ha :=
    congrArg (fun rows => { rowsOf organizationId db with instances := rows })
      (select_owned_update (fun i : WorkflowInstance => db.contractOwner i.contractId) h hb ha)

instance : Owned ShareLink where
  owner db l := db.contractOwner l.contractId
  owner_withId _ _ _ := rfl
  rows := TenantRows.shareLinks
  rows_rowsOf _ _ := rfl
  rowsOf_insert {organizationId db _ _ _} h hn :=
    congrArg (fun rows => { rowsOf organizationId db with shareLinks := rows })
      (select_owned_insert (fun l : ShareLink => db.contractOwner l.contractId) h hn)
  rowsOf_update {organizationId db _ _} h hb ha :=
    congrArg (fun rows => { rowsOf organizationId db with shareLinks := rows })
      (select_owned_update (fun l : ShareLink => db.contractOwner l.contractId) h hb ha)

/-- The rows of contracts follow their contracts. -/
theorem rowsOf_contracts {organizationId : Nat} {db : Database} {t : Table Contract}
    (hs : t.select (fun c => c.organizationId = organizationId) =
      db.contracts.select (fun c => c.organizationId = organizationId))
    (ho : ∀ id, (t.get id).map (fun c => c.organizationId) = some organizationId ↔
      db.contractOwner id = some organizationId) :
    rowsOf organizationId { db with contracts := t } = rowsOf organizationId db := by
  have ho' : ∀ id, Database.contractOwner { db with contracts := t } id = some organizationId ↔
      db.contractOwner id = some organizationId := ho
  unfold rowsOf
  simp only [hs, ho']

theorem contractOwner_insert {organizationId : Nat} {db : Database} {a new : Contract}
    {t : Table Contract} (h : db.contracts.insert a = some (new, t))
    (hn : new.organizationId ≠ organizationId) (id : Nat) :
    (t.get id).map (fun c => c.organizationId) = some organizationId ↔
      db.contractOwner id = some organizationId := by
  unfold Database.contractOwner
  rw [Table.get_insert h]
  by_cases hid : id = db.contracts.next
  · simp [hid, Table.get_next, hn]
  · rw [if_neg hid]

theorem contractOwner_update {organizationId : Nat} {db : Database} {a : Contract}
    {t : Table Contract} (h : db.contracts.update a = some t)
    (hb : ∀ r ∈ db.contracts.rows, Row.id r = Row.id a → r.organizationId ≠ organizationId)
    (ha : a.organizationId ≠ organizationId) (id : Nat) :
    (t.get id).map (fun c => c.organizationId) = some organizationId ↔
      db.contractOwner id = some organizationId := by
  unfold Database.contractOwner
  rw [Table.get_update h]
  by_cases hid : id = Row.id a
  · rw [if_pos hid]
    cases hg : db.contracts.get id with
    | none => simp
    | some r =>
      obtain ⟨hr, hrid⟩ := Table.get_eq_some_iff.mp hg
      have hne := hb r hr (hrid.trans hid)
      simp [ha, hne]
  · rw [if_neg hid]

instance : Owned Contract where
  owner _ c := some c.organizationId
  owner_withId _ _ _ := rfl
  rows := TenantRows.contracts
  rows_rowsOf _ _ := by simp [rowsOf, Stored.table]
  rowsOf_insert h hn :=
    rowsOf_contracts (select_owned_insert Contract.organizationId h (ne_of_some_ne hn))
      (contractOwner_insert h (ne_of_some_ne hn))
  rowsOf_update h hb ha :=
    have hb' := fun r hr hid => ne_of_some_ne (hb r hr hid)
    rowsOf_contracts (select_owned_update Contract.organizationId h hb' (ne_of_some_ne ha))
      (contractOwner_update h hb' (ne_of_some_ne ha))

end Orchestract
