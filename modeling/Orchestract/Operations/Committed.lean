import Orchestract.Application.Operations
import Orchestract.Workflow.Lifecycle

/-!
# What a call commits

Every call of a service gets the world where it leaves it by steps of `Committed`. A step inserts
or updates the rows of one aggregate, together with the rows that are stored with it in one unit
of work, and says what is known of them.
-/

namespace Orchestract

set_option autoImplicit false

/-- The password that a call stores. -/
def Operation.password : Operation → Option String
  | .register _ _ _ rawPassword _ _ | .createUser _ _ _ rawPassword _ => some rawPassword
  | .changePassword _ _ newPassword | .resetPassword _ newPassword => some newPassword
  | _ => none

def Operation.isUpload : Operation → Bool
  | .uploadVersion .. | .importVersion .. => true
  | _ => false

/-- There is room for one more row beside `count` rows. -/
def Organization.HasRoom (o : Organization) (limit : PlanLimits → Option Nat) (count : Nat) : Prop :=
  ∀ m, limit o.plan.limits = some m → count < m

/-- A new account: one with the password of the call, or one that another party has verified. -/
def NewUser (i : Input) (u : User) : Prop :=
  (∃ p, i.operation.password = some p ∧ u.passwordHash = some (i.env.hashPassword p)) ∨
    (u.passwordHash = none ∧ u.isEmailVerified = true)

/-- What every method of a user keeps. -/
structure UserEdit (i : Input) (u u' : User) : Prop where
  id : u'.id = u.id
  organizationId : u'.organizationId = u.organizationId
  email : u'.email = u.email
  passwordHash : u'.passwordHash = u.passwordHash ∨
    ∃ p, i.operation.password = some p ∧ u'.passwordHash = some (i.env.hashPassword p)
  verified : u.isEmailVerified = true → u'.isEmailVerified = true

structure ConnectionEdit (c c' : StorageConnection) : Prop where
  id : c'.id = c.id
  organizationId : c'.organizationId = c.organizationId
  provider : c'.provider = c.provider
  config : c'.config = c.config
  credential : c'.credential = c.credential ∨ c.isWriteCapable = false
  primary : c'.isPrimary = true → c.isPrimary = true ∨ c.isWriteCapable = true

inductive Committed (i : Input) (w : World) : World → Prop where
  | newOrganization {o new : Organization} {t : Table Organization}
      (h : w.db.organizations.insert o = some (new, t)) :
      Committed i w { w with db := { w.db with organizations := t } }
  | newAccount {o organization : Organization} {r role : Role} {u user : User}
      {os : Table Organization} {rs : Table Role} {us : Table User} {as : Table TermsAcceptance}
      (ho : w.db.organizations.insert o = some (organization, os)) (free : o.plan = .free)
      (hr : w.db.roles.insert r = some (role, rs)) (roleOf : r.organizationId = organization.id)
      (unlinked : r.agentId = none) (hu : w.db.users.insert u = some (user, us))
      (userOf : u.organizationId = organization.id) (owner : u.roleId = role.id) (new : NewUser i u) :
      Committed i w { w with db := { w.db with
        organizations := os, roles := rs, users := us, acceptances := as } }
  | newUser {o : Organization} {u new : User} {t : Table User}
      (ho : w.db.organizations.get u.organizationId = some o) (refs : refsExist u w.db = true)
      (room : o.HasRoom PlanLimits.maxUsers
        (w.db.users.select fun x => x.organizationId = u.organizationId).length)
      (h : w.db.users.insert u = some (new, t)) (new : NewUser i u) :
      Committed i w { w with db := { w.db with users := t } }
  | user {u u' : User} {t : Table User} (hu : u ∈ w.db.users.rows) (edit : UserEdit i u u')
      (refs : refsExist u' w.db = true) (h : w.db.users.update u' = some t) :
      Committed i w { w with db := { w.db with users := t } }
  | newRole {r new : Role} {t : Table Role} (refs : refsExist r w.db = true)
      (h : w.db.roles.insert r = some (new, t)) :
      Committed i w { w with db := { w.db with roles := t } }
  | role {r : Role} {t : Table Role} (refs : refsExist r w.db = true)
      (h : w.db.roles.update r = some t) :
      Committed i w { w with db := { w.db with roles := t } }
  | newAgent {o : Organization} {a new : Agent} {t : Table Agent}
      (ho : w.db.organizations.get a.organizationId = some o)
      (room : o.HasRoom PlanLimits.maxAgents
        (w.db.agents.select fun x => x.organizationId = a.organizationId).length)
      (h : w.db.agents.insert a = some (new, t)) :
      Committed i w { w with db := { w.db with agents := t } }
  | agent {a a' : Agent} {t : Table Agent} (ha : a ∈ w.db.agents.rows) (id : a'.id = a.id)
      (organizationId : a'.organizationId = a.organizationId) (h : w.db.agents.update a' = some t) :
      Committed i w { w with db := { w.db with agents := t } }
  | newDefinition {o : Organization} {d new : WorkflowDefinition} {t : Table WorkflowDefinition}
      (ho : w.db.organizations.get d.organizationId = some o)
      (room : o.HasRoom PlanLimits.maxWorkflows
        (w.db.definitions.select fun x => x.organizationId = d.organizationId).length)
      (built : d.Built) (h : w.db.definitions.insert d = some (new, t)) :
      Committed i w { w with db := { w.db with definitions := t } }
  | copy {source d new : WorkflowDefinition} {t : Table WorkflowDefinition}
      (call : i.operation = .duplicateDefinition source.id) (hs : source ∈ w.db.definitions.rows)
      (organizationId : d.organizationId = source.organizationId) (built : d.Built)
      (h : w.db.definitions.insert d = some (new, t)) :
      Committed i w { w with db := { w.db with definitions := t } }
  | definition {d : WorkflowDefinition} {t : Table WorkflowDefinition}
      (hd : d ∈ w.db.definitions.rows) (calls : List WorkflowDefinition.Call)
      (h : w.db.definitions.update (Runs.run WorkflowDefinition.perform d calls) = some t) :
      Committed i w { w with db := { w.db with definitions := t } }
  | newContract {o : Organization} {definition : WorkflowDefinition} {k contract : Contract}
      {d document : Document} {started new : WorkflowInstance} {actor : String}
      {ks : Table Contract} {ds : Table Document} {is : Table WorkflowInstance}
      (ho : w.db.organizations.get k.organizationId = some o)
      (room : o.HasRoom PlanLimits.maxContracts
        (w.db.contracts.select fun x => x.organizationId = k.organizationId).length)
      (hdef : definition ∈ w.db.definitions.rows) (hk : w.db.contracts.insert k = some (contract, ks))
      (hd : w.db.documents.insert d = some (document, ds)) (versions : d.versions = [])
      (currentVersionNo : d.currentVersionNo = 0)
      (hstart : WorkflowInstance.start contract.id definition actor i.env.now = .ok started)
      (hi : w.db.instances.insert started = some (new, is)) :
      Committed i w { w with db := { w.db with contracts := ks, documents := ds, instances := is } }
  | contract {k k' : Contract} {t : Table Contract} (hk : k ∈ w.db.contracts.rows) (id : k'.id = k.id)
      (organizationId : k'.organizationId = k.organizationId) (h : w.db.contracts.update k' = some t) :
      Committed i w { w with db := { w.db with contracts := t } }
  | newDocument {d new : Document} {t : Table Document} (versions : d.versions = [])
      (currentVersionNo : d.currentVersionNo = 0) (h : w.db.documents.insert d = some (new, t)) :
      Committed i w { w with db := { w.db with documents := t } }
  | document {d d' : Document} {t : Table Document} (hd : d ∈ w.db.documents.rows) (id : d'.id = d.id)
      (versions : d'.versions = d.versions) (currentVersionNo : d'.currentVersionNo = d.currentVersionNo)
      (h : w.db.documents.update d' = some t) :
      Committed i w { w with db := { w.db with documents := t } }
  | upload (call : i.operation.isUpload = true) (t : Table Document) (n : Nat)
      (files : Bucket → String → Option Bytes) :
      Committed i w ⟨{ w.db with documents := t, nextVersionId := n }, files⟩
  | instance {r r' : WorkflowInstance} {d : WorkflowDefinition} {t : Table WorkflowInstance}
      (call : WorkflowInstance.Call) (hr : r ∈ w.db.instances.rows)
      (hd : w.db.definitions.get r.workflowDefinitionId = some d) (move : call.result d r = .ok r')
      (h : w.db.instances.update r' = some t) :
      Committed i w { w with db := { w.db with instances := t } }
  | shareLinks (t : Table ShareLink) : Committed i w { w with db := { w.db with shareLinks := t } }
  | sessions (t : Table UserSession) : Committed i w { w with db := { w.db with sessions := t } }
  | acceptances (t : Table TermsAcceptance) :
      Committed i w { w with db := { w.db with acceptances := t } }
  | newConnection {c new : StorageConnection} {t : Table StorageConnection}
      (primary : c.isPrimary = true → c.isWriteCapable = true)
      (h : w.db.connections.insert c = some (new, t)) :
      Committed i w { w with db := { w.db with connections := t } }
  | connection {c c' : StorageConnection} {t : Table StorageConnection}
      (hc : c ∈ w.db.connections.rows) (edit : ConnectionEdit c c')
      (h : w.db.connections.update c' = some t) :
      Committed i w { w with db := { w.db with connections := t } }

end Orchestract
