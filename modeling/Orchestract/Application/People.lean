import Mathlib.Data.List.Sort
import Mathlib.Data.String.Basic
import Orchestract.Infrastructure.Database

/-!
# Organizations, users, roles and agents

The services of `app/application/organization_service.py`, `user_service.py`, `role_service.py`,
`agent_service.py` and `compliance_service.py`, as far as the organization's own pages use them.
-/

namespace Orchestract

set_option autoImplicit false

/-- `order_by` a text column. -/
def orderByText {α : Type} (column : α → String) (rows : List α) : List α :=
  rows.insertionSort (fun a b => column a ≤ column b)

theorem mem_orderByText {α : Type} {column : α → String} {rows : List α} {a : α} :
    a ∈ orderByText column rows ↔ a ∈ rows := List.mem_insertionSort _

/-- `order_by(column.desc())`. -/
def orderByDesc {α : Type} (column : α → Nat) (rows : List α) : List α :=
  rows.insertionSort (fun a b => column b ≤ column a)

theorem mem_orderByDesc {α : Type} {column : α → Nat} {rows : List α} {a : α} :
    a ∈ orderByDesc column rows ↔ a ∈ rows := List.mem_insertionSort _

/-- An overwritten row keeps its place when it keeps the column. -/
theorem orderByDesc_overwrite {α : Type} [Row α] (column : α → Nat) {a : α} {rows : List α}
    (h : ∀ r ∈ rows, Row.id r = Row.id a → column a = column r) :
    orderByDesc column (Table.overwrite a rows) = Table.overwrite a (orderByDesc column rows) := by
  have hsame : ∀ r ∈ rows, column (if Row.id r = Row.id a then a else r) = column r := by
    intro r hr
    by_cases hid : Row.id r = Row.id a
    · rw [if_pos hid, h r hr hid]
    · rw [if_neg hid]
  unfold Table.overwrite orderByDesc
  refine (List.map_insertionSort _ _ _ _ fun b hb c hc => ?_).symm
  rw [hsame b hb, hsame c hc]

/-- The plan check at the head of the `create_*` methods. -/
def requireRoom {α : Type} (organization : Organization) (limit : PlanLimits → Option Nat)
    (plural : String) (existing : Query (List α)) : Query Unit := do
  let limits := organization.plan.limits
  match limit limits with
  | none => return ()
  | some m =>
    let rows ← existing
    raiseIf (m ≤ rows.length) (DomainError.planLimitExceeded
      s!"the {limits.displayName} plan is limited to {m} {plural} -- upgrade to add more")

namespace OrganizationService

def createOrganization (name : String) : UnitOfWork Organization := do
  let organization ← Organization.create name
  add organization

def get (organizationId : Nat) : Query Organization := require "organization" organizationId

def getBySlug (slug : String) : Query Organization := do
  let organization ← oneOrNone (fun o : Organization => o.slug = slug)
  orRaise (DomainError.notFound s!"organization '{slug}' not found") organization

end OrganizationService

namespace UserService

def get (userId : Nat) : Query User := require "user" userId

def listUsers (organizationId : Nat) : Query (List User) := do
  let rows ← select (fun u : User => u.organizationId = organizationId)
  return orderByText User.name rows

def getByEmail (email : String) : Query (Option User) :=
  oneOrNone (fun u : User => u.email = Text.lower (Text.strip email))

def createUser (env : Env) (organizationId : Nat) (name email rawPassword : String) (roleId : Nat) :
    UnitOfWork User := do
  let organization ← OrganizationService.get organizationId
  requireRoom organization PlanLimits.maxUsers "users" (listUsers organizationId)
  let existing ← getByEmail email
  raiseIf existing.isSome (DomainError.duplicateEmail email)
  let user ← User.create organizationId name email (env.hashPassword rawPassword) roleId
  add user

def setActive (userId : Nat) (active : Bool) : UnitOfWork User :=
  change "user" userId fun user => .ok (if active then user.activate else user.deactivate)

def setRole (userId roleId : Nat) : UnitOfWork User :=
  change "user" userId fun user => .ok (user.setRole roleId)

def setLocale (userId : Nat) (locale : Option String) : UnitOfWork User :=
  change "user" userId fun user => .ok (user.setLocale locale)

def updateProfile (userId : Nat) (name : String) (roleId : Nat) : UnitOfWork User :=
  change "user" userId fun user => (fun u => u.setRole roleId) <$> user.rename name

def rename (userId : Nat) (newName : String) : UnitOfWork User :=
  change "user" userId fun user => user.rename newName

def changePassword (env : Env) (userId : Nat) (currentPassword newPassword : String) :
    UnitOfWork User :=
  change "user" userId fun user => do
    raiseIf (¬ user.verifyPassword env.verifyPassword currentPassword) .invalidCredentials
    return user.setPassword (env.hashPassword newPassword)

def authenticate (env : Env) (email rawPassword : String) : Query User := do
  let found ← getByEmail email
  let user ← orRaise DomainError.invalidCredentials found
  raiseIf (¬ user.isActive ∨ ¬ user.verifyPassword env.verifyPassword rawPassword)
    DomainError.invalidCredentials
  raiseIf (¬ user.isEmailVerified) DomainError.emailNotVerified
  return user

def getUserBySessionToken (env : Env) (token : String) : Query (Option User) := do
  match ← oneOrNone (fun s : UserSession => s.token = token) with
  | none => return none
  | some session =>
    if session.isValid env.now then
      let user ← find session.userId
      return user.filter (fun u => u.isActive)
    else return none

end UserService

namespace RoleService

def get (roleId : Nat) : Query Role := require "role" roleId

def listRoles (organizationId : Nat) : Query (List Role) := do
  let rows ← select (fun r : Role => r.organizationId = organizationId)
  return orderByText Role.name rows

def getBySlug (organizationId : Nat) (slug : String) : Query (Option Role) :=
  oneOrNone (fun r : Role => r.organizationId = organizationId && r.slug = slug)

def createRole (organizationId : Nat) (name : String) (description : Option String)
    (agentId : Option Nat) : UnitOfWork Role := do
  let existing ← getBySlug organizationId (Text.slugify name)
  raiseIf existing.isSome (DomainError.duplicateRoleName name)
  let role ← Role.create organizationId name description agentId
  add role

def updateRole (roleId : Nat) (name : String) (description : Option String) (agentId : Option Nat) :
    UnitOfWork Role := do
  let role ← get roleId
  let trimmed := Text.strip name
  let clash ← (if trimmed = "" then pure none
    else getBySlug role.organizationId (Text.slugify trimmed) : Query (Option Role))
  raiseIf (clash.any (fun r => r.id ≠ roleId)) (DomainError.duplicateRoleName trimmed)
  let role ← role.rename name
  let role := (role.setDescription description).setAgent agentId
  save role
  return role

def renameRole (roleId : Nat) (newName : String) : UnitOfWork Role :=
  change "role" roleId fun role => role.rename newName

def setAgent (roleId : Nat) (agentId : Option Nat) : UnitOfWork Role :=
  change "role" roleId fun role => .ok (role.setAgent agentId)

def listForAgent (agentId : Nat) : Query (List Role) :=
  select (fun r : Role => r.agentId = some agentId)

def canEditStep (user : User) (agentId : Nat) : Query Bool := do
  let rolesLinkedToAgent ← listForAgent agentId
  return Orchestract.canEditStep user.roleId rolesLinkedToAgent

end RoleService

namespace AgentService

def get (agentId : Nat) : Query Agent := require "agent" agentId

def listAgents (organizationId : Nat) : Query (List Agent) := do
  let rows ← select (fun a : Agent => a.organizationId = organizationId)
  return orderByText Agent.name rows

def createAgent (organizationId : Nat) (name : String) (description : Option String) :
    UnitOfWork Agent := do
  let organization ← OrganizationService.get organizationId
  requireRoom organization PlanLimits.maxAgents "agents" (listAgents organizationId)
  let agent ← Agent.create organizationId name description
  add agent

def renameAgent (agentId : Nat) (newName : String) : UnitOfWork Agent :=
  change "agent" agentId fun agent => agent.rename newName

def update (agentId : Nat) (name : String) (description : Option String) : UnitOfWork Agent :=
  change "agent" agentId fun agent => (fun a => a.setDescription description) <$> agent.rename name

def setActive (agentId : Nat) (active : Bool) : UnitOfWork Agent :=
  change "agent" agentId fun agent => .ok (if active then agent.activate else agent.deactivate)

end AgentService

namespace ComplianceService

def recordAcceptance (env : Env) (userId organizationId : Nat) (ipAddress userAgent : Option String) :
    UnitOfWork TermsAcceptance :=
  add (TermsAcceptance.record userId organizationId currentTermsVersion ipAddress userAgent env.now)

def hasAcceptedCurrent (userId : Nat) : Query Bool := do
  let rows ← select (fun a : TermsAcceptance => a.userId = userId && a.version = currentTermsVersion)
  return !rows.isEmpty

def latestAcceptance (userId : Nat) : Query (Option TermsAcceptance) := do
  let rows ← select (fun a : TermsAcceptance => a.userId = userId)
  return (orderByDesc TermsAcceptance.acceptedAt rows).head?

end ComplianceService

end Orchestract
