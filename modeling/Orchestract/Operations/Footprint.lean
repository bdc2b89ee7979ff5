import Orchestract.Operations.Reaches

/-!
# The footprint of a call

The tables that a call writes to, and that it only stores new rows and changes old ones there. A
changed row stays with its holder: the organization, contract or user it was stored for. What the
writes of its footprint keep, the call keeps.
-/

namespace Orchestract

set_option autoImplicit false

/-- A table, the sequence of version ids, or the stored files. -/
inductive Site where
  | organizations
  | users
  | roles
  | agents
  | definitions
  | contracts
  | documents
  | instances
  | shareLinks
  | connections
  | sessions
  | acceptances
  | versionIds
  | files
deriving DecidableEq, Repr

/-- The row that a row is stored for. -/
class Held (α : Type) where
  holder : α → Nat

instance : Held Organization := ⟨fun _ => 0⟩
instance : Held User := ⟨User.organizationId⟩
instance : Held Role := ⟨Role.organizationId⟩
instance : Held Agent := ⟨Agent.organizationId⟩
instance : Held WorkflowDefinition := ⟨WorkflowDefinition.organizationId⟩
instance : Held Contract := ⟨Contract.organizationId⟩
instance : Held Document := ⟨Document.contractId⟩
instance : Held WorkflowInstance := ⟨WorkflowInstance.contractId⟩
instance : Held ShareLink := ⟨ShareLink.contractId⟩
instance : Held StorageConnection := ⟨StorageConnection.organizationId⟩
instance : Held UserSession := ⟨UserSession.userId⟩
instance : Held TermsAcceptance := ⟨TermsAcceptance.userId⟩

section

variable (α : Type) [Row α] [Stored α] [Held α]

/-- `I` is kept when a row is stored, and when a row is changed that stays with its holder. -/
structure KeepsRows (I : World → Prop) : Prop where
  add : ∀ (a new : α) (w w' : World), I w → Orchestract.add a w = .ok (new, w') → I w'
  save : ∀ (r a : α) (w w' : World), I w → (Stored.table w.db).get (Row.id a) = some r →
    Held.holder a = Held.holder r → Orchestract.save a w = .ok ((), w') → I w'

end

/-- `I` is kept by the writes to this site. Of these tables only that of the sessions loses rows. -/
def KeptBy : Site → (World → Prop) → Prop
  | .organizations => KeepsRows Organization
  | .users => KeepsRows User
  | .roles => KeepsRows Role
  | .agents => KeepsRows Agent
  | .definitions => KeepsRows WorkflowDefinition
  | .contracts => KeepsRows Contract
  | .documents => KeepsRows Document
  | .instances => KeepsRows WorkflowInstance
  | .shareLinks => KeepsRows ShareLink
  | .connections => KeepsRows StorageConnection
  | .sessions => fun I => KeepsRows UserSession I ∧
      ∀ w p, I w → I { w with db := { w.db with sessions := w.db.sessions.delete p } }
  | .acceptances => KeepsRows TermsAcceptance
  | .versionIds => fun I => ∀ w n, I w → I { w with db := { w.db with nextVersionId := n } }
  | .files => fun I => ∀ w files, I w → I { w with files := files }

/-- A mapped class with the site of its table. -/
class Sited (α : Type) [Row α] [Stored α] [Held α] where
  site : Site
  keeps : ∀ I, KeptBy site I → KeepsRows α I

instance : Sited Organization := ⟨.organizations, fun _ h => h⟩
instance : Sited User := ⟨.users, fun _ h => h⟩
instance : Sited Role := ⟨.roles, fun _ h => h⟩
instance : Sited Agent := ⟨.agents, fun _ h => h⟩
instance : Sited WorkflowDefinition := ⟨.definitions, fun _ h => h⟩
instance : Sited Contract := ⟨.contracts, fun _ h => h⟩
instance : Sited Document := ⟨.documents, fun _ h => h⟩
instance : Sited WorkflowInstance := ⟨.instances, fun _ h => h⟩
instance : Sited ShareLink := ⟨.shareLinks, fun _ h => h⟩
instance : Sited StorageConnection := ⟨.connections, fun _ h => h⟩
instance : Sited UserSession := ⟨.sessions, fun _ h => h.1⟩
instance : Sited TermsAcceptance := ⟨.acceptances, fun _ h => h⟩

/-- The unit of work writes to these sites only. -/
def Within {α : Type} (sites : List Site) (m : UnitOfWork α) : Prop :=
  ∀ I : World → Prop, (∀ site ∈ sites, KeptBy site I) → Work.Keeps I m

/-- The sites a call writes to. -/
def Operation.footprint : Operation → List Site
  | .createOrganization .. => [.organizations]
  | .register .. | .loginOrRegisterGoogle .. => [.organizations, .roles, .users, .acceptances]
  | .createEmailVerificationToken .. | .resendVerification .. | .createPasswordResetToken .. => []
  | .verifyEmail .. | .resetPassword .. | .createUser .. | .setUserActive .. | .setUserRole ..
  | .setLocale .. | .updateProfile .. | .renameUser .. | .changePassword .. | .forceVerify .. =>
    [.users]
  | .createSession .. => [.sessions]
  | .recordAcceptance .. => [.acceptances]
  | .createRole .. | .updateRole .. | .renameRole .. | .setRoleAgent .. => [.roles]
  | .createAgent .. | .updateAgent .. | .renameAgent .. | .setAgentActive .. => [.agents]
  | .createDefinition .. | .updateDetails .. | .addStep .. | .addTransition .. | .activate ..
  | .duplicateDefinition .. => [.definitions]
  | .createWorkflowFromPreset .. => [.agents, .definitions]
  | .createContract .. => [.contracts, .documents, .instances]
  | .setContractSummary .. | .setAIConfig .. => [.contracts]
  | .addDocument .. => [.contracts, .documents]
  | .transitionContract .. => [.instances]
  | .setDocumentSummary .. => [.documents]
  | .uploadVersion .. | .importVersion .. => [.documents, .versionIds, .files]
  | .createLink .. | .revokeLink .. => [.shareLinks]
  | .connectBucket .. | .setPrimary .. | .disconnect .. | .completeOauthConnection .. => [.connections]

/-! ## Rules -/

section

variable {α β : Type} {sites : List Site}

theorem within_iff {m : UnitOfWork α} : Within sites m ↔ ∀ I : World → Prop,
    (∀ site ∈ sites, KeptBy site I) → ∀ w a w', I w → m w = .ok (a, w') → I w' := by
  constructor
  · exact fun h I hI w a w' hw hm => (h I hI w hw a w' hm).1
  · exact fun h I hI w hw a w' hm => ⟨h I hI w a w' hw hm, trivial⟩

theorem within_read (r : Query α) : Within sites (liftM r : UnitOfWork α) :=
  fun _ _ => Work.keeps_read r

theorem within_raising (x : Except DomainError α) : Within sites (liftM x : UnitOfWork α) :=
  fun _ _ => ensures_raising fun _ _ => trivial

theorem within_pure (a : α) : Within sites (pure a : UnitOfWork α) :=
  fun _ _ => Work.ensures_pure trivial

theorem within_bind {m : UnitOfWork α} {f : α → UnitOfWork β} (hm : Within sites m)
    (hf : ∀ a, Within sites (f a)) : Within sites (m >>= f) :=
  fun I hI => Work.ensures_bind (hm I hI) fun a _ => hf a I hI

variable [Row α] [Stored α] [Held α] [Sited α]

theorem within_add (a : α) (hmem : Sited.site α ∈ sites) : Within sites (add a) :=
  within_iff.mpr fun I hI w new w' hw h => (Sited.keeps I (hI _ hmem)).add a new w w' hw h

/-- A changed row that was loaded by its id. -/
theorem within_change {what : String} {id : Nat} {method : α → Except DomainError α}
    (hmem : Sited.site α ∈ sites)
    (hmethod : ∀ r a, method r = .ok a → Row.id a = Row.id r ∧ Held.holder a = Held.holder r) :
    Within sites (change what id method) := by
  refine within_iff.mpr fun I hI w a w' hw h => ?_
  obtain ⟨r, hr, ha, hsave⟩ := (change_ok_iff what id method a w w').mp h
  obtain ⟨hid, hholder⟩ := hmethod r a ha
  obtain ⟨_, rfl⟩ := Table.get_eq_some_iff.mp hr
  exact (Sited.keeps I (hI _ hmem)).save r a w w' hw (hid ▸ hr) hholder hsave

/-- A saved row that is known to have been there. -/
theorem keptBy_save {I : World → Prop} {r a : α} {w w' : World} (hI : KeptBy (Sited.site α) I)
    (hr : r ∈ (Stored.table w.db : Table α).rows) (hid : Row.id a = Row.id r)
    (hholder : Held.holder a = Held.holder r) (hw : I w) (h : save a w = .ok ((), w')) : I w' :=
  (Sited.keeps I hI).save r a w w' hw (Table.get_eq_some_iff.mpr ⟨hr, hid.symm⟩) hholder h

end

/-! ## Accounts -/

theorem within_createOrganization (name : String) :
    Within [.organizations] (OrganizationService.createOrganization name) :=
  within_bind (within_raising _) fun o => within_add o (by decide)

theorem within_changeUser {id : Nat} {method : User → Except DomainError User}
    (h : ∀ u u', method u = .ok u' → u'.id = u.id ∧ u'.organizationId = u.organizationId) :
    Within [.users] (change "user" id method) := within_change (by decide) h

theorem within_createUser (env : Env) (organizationId : Nat) (name email rawPassword : String)
    (roleId : Nat) : Within [.users]
      (UserService.createUser env organizationId name email rawPassword roleId) := by
  apply within_bind (within_read _)
  intro _
  apply within_bind (within_read _)
  intro _
  apply within_bind (within_read _)
  intro _
  apply within_bind (within_raising _)
  intro _
  apply within_bind (within_raising _)
  exact fun u => within_add u (by decide)

theorem within_setUserActive (userId : Nat) (active : Bool) :
    Within [.users] (UserService.setActive userId active) := by
  apply within_changeUser
  intro u u' h
  obtain rfl := Except.ok.inj h
  cases active
  · exact ⟨rfl, rfl⟩
  · exact ⟨rfl, rfl⟩

theorem user_rename_holder {u u' : User} {name : String} (h : u.rename name = .ok u') :
    u'.id = u.id ∧ u'.organizationId = u.organizationId := by
  obtain ⟨_, rfl⟩ := user_rename_ok_iff.mp h
  exact ⟨rfl, rfl⟩

theorem within_updateProfile (userId : Nat) (name : String) (roleId : Nat) :
    Within [.users] (UserService.updateProfile userId name roleId) := by
  apply within_changeUser
  intro u u' h
  obtain ⟨renamed, hr, rfl⟩ := (map_ok_iff _ _ _).mp h
  obtain ⟨hid, horg⟩ := user_rename_holder hr
  exact ⟨hid, horg⟩

theorem within_changePassword (env : Env) (userId : Nat) (currentPassword newPassword : String) :
    Within [.users] (UserService.changePassword env userId currentPassword newPassword) := by
  apply within_changeUser
  intro u u' h
  obtain ⟨_, _, h⟩ := (bind_ok_iff _ _ _).mp h
  obtain rfl := Except.ok.inj h
  exact ⟨rfl, rfl⟩

theorem within_forceVerify (env : Env) (userId : Nat) : Within [.users] (UserService.forceVerify env userId) := by
  apply within_changeUser
  intro u u' h
  obtain rfl := Except.ok.inj h
  exact ⟨rfl, rfl⟩

theorem within_setUserRole (userId roleId : Nat) : Within [.users] (UserService.setRole userId roleId) := by
  apply within_changeUser
  intro u u' h
  obtain rfl := Except.ok.inj h
  exact ⟨rfl, rfl⟩

theorem within_setLocale (userId : Nat) (locale : Option String) :
    Within [.users] (UserService.setLocale userId locale) := by
  apply within_changeUser
  intro u u' h
  obtain rfl := Except.ok.inj h
  exact ⟨rfl, rfl⟩

theorem within_createSession (env : Env) (userId : Nat) :
    Within [.sessions] (UserService.createSession env userId) :=
  within_add _ (by decide)

theorem within_recordAcceptance (env : Env) (userId organizationId : Nat)
    (ipAddress userAgent : Option String) : Within [.acceptances]
      (ComplianceService.recordAcceptance env userId organizationId ipAddress userAgent) :=
  within_add _ (by decide)

/-- A new account, stored after its organization. -/
theorem within_owner {β : Type} (organization : Organization) (create : Nat → Except DomainError User)
    (acceptance : User → TermsAcceptance) (result : User → β) :
    Within [.organizations, .roles, .users, .acceptances] (do
      let role ← Role.create organization.id "Owner" none none
      let role ← add role
      let user ← create role.id
      let user ← add user
      let _ ← add (acceptance user)
      return result user) := by
  apply within_bind (within_raising _)
  intro role
  apply within_bind (within_add role (by decide))
  intro role
  apply within_bind (within_raising _)
  intro user
  apply within_bind (within_add user (by decide))
  intro user
  apply within_bind (within_add (acceptance user) (by decide))
  exact fun _ => within_pure _

theorem within_register (env : Env) (organizationName userName email rawPassword : String)
    (ipAddress userAgent : Option String) :
    Within [.organizations, .roles, .users, .acceptances]
      (RegistrationService.register env organizationName userName email rawPassword ipAddress userAgent) := by
  apply within_bind (within_read _)
  intro _
  apply within_bind (within_raising _)
  intro _
  apply within_bind (within_raising _)
  intro o
  apply within_bind (within_add o (by decide))
  intro organization
  exact within_owner organization
    (fun roleId => User.create organization.id userName email (env.hashPassword rawPassword) roleId)
    (fun user => .record user.id organization.id currentTermsVersion ipAddress userAgent env.now)
    (fun user => (organization, user))

theorem within_loginOrRegisterGoogle (env : Env) (identity : GoogleIdentity) (termsVersion : String)
    (ipAddress userAgent : Option String) : Within [.organizations, .roles, .users, .acceptances]
      (SocialAuthService.loginOrRegisterGoogle env identity termsVersion ipAddress userAgent) := by
  refine within_iff.mpr fun I hI w a w' hw h => ?_
  obtain ⟨_, w₁, hcheck, h⟩ := (Work.bind_ok_iff _ _ w w' a).mp h
  obtain ⟨_, rfl⟩ := (lift_work_ok_iff _ w w₁ _).mp hcheck
  obtain ⟨_, w₂, hcheck, h⟩ := (Work.bind_ok_iff _ _ w w' a).mp h
  obtain ⟨_, rfl⟩ := (lift_work_ok_iff _ w w₂ _).mp hcheck
  obtain ⟨found, w₃, hread, h⟩ := (Work.bind_ok_iff _ _ w w' a).mp h
  obtain ⟨hfound, rfl⟩ := (Work.lift_ok_iff _ w w₃ found).mp hread
  cases found with
  | some u =>
    simp only [Work.bind_ok_iff, lift_work_ok_iff, Work.pure_ok_iff] at h
    obtain ⟨_, _, ⟨_, rfl⟩, ⟨⟩, _, hsave, _, rfl⟩ := h
    have hlinked : (u.linkGoogle identity.sub env.now).id = u.id := rfl
    exact keptBy_save (hI .users (by decide)) (oneOrNone_eq_some hfound).1 hlinked rfl hw hsave
  | none =>
    refine within_iff.mp (within_bind (within_read _) fun name => ?_) I hI w a w' hw h
    apply within_bind (within_raising _)
    intro o
    apply within_bind (within_add o (by decide))
    intro organization
    exact within_owner organization
      (fun roleId => User.createSocial organization.id
        (if identity.name = "" then identity.email else identity.name) identity.email roleId
        identity.sub env.now)
      (fun user => .record user.id organization.id termsVersion ipAddress userAgent env.now)
      (fun user => user)

theorem within_changeHolder (userId : Nat) {method : User → User}
    (h : ∀ u, (method u).id = u.id ∧ (method u).organizationId = u.organizationId) :
    Within [.users] (Accounts.changeHolder userId method) := by
  refine within_iff.mpr fun I hI w a w' hw hrun => ?_
  simp only [Accounts.changeHolder, Work.bind_ok_iff, Work.lift_ok_iff, lift_work_ok_iff, find_apply,
    orRaise_ok_iff, Except.ok.injEq, Work.pure_ok_iff] at hrun
  obtain ⟨_, _, ⟨rfl, rfl⟩, u, _, ⟨hu, rfl⟩, ⟨⟩, _, hsave, _, rfl⟩ := hrun
  have hmem : u ∈ w.db.users.rows := (Table.get_eq_some_iff.mp hu).1
  exact keptBy_save (hI .users (by decide)) hmem (h u).1 (h u).2 hw hsave

/-! ## Roles and agents -/

theorem role_rename_ok_iff {r r' : Role} {newName : String} :
    r.rename newName = .ok r' ↔ Text.strip newName ≠ "" ∧
      { r with name := Text.strip newName, slug := Text.slugify (Text.strip newName) } = r' := by
  simp [Role.rename]

theorem within_createRole (organizationId : Nat) (name : String) (description : Option String)
    (agentId : Option Nat) :
    Within [.roles] (RoleService.createRole organizationId name description agentId) := by
  apply within_bind (within_read _)
  intro _
  apply within_bind (within_raising _)
  intro _
  apply within_bind (within_raising _)
  exact fun role => within_add role (by decide)

theorem within_updateRole (roleId : Nat) (name : String) (description : Option String)
    (agentId : Option Nat) : Within [.roles] (RoleService.updateRole roleId name description agentId) := by
  refine within_iff.mpr fun I hI w a w' hw h => ?_
  simp only [RoleService.updateRole, RoleService.get, Work.bind_ok_iff, Work.lift_ok_iff, require_ok_iff,
    lift_work_ok_iff, Work.pure_ok_iff] at h
  obtain ⟨r, _, ⟨hr, rfl⟩, _, _, ⟨_, rfl⟩, _, _, ⟨_, rfl⟩, renamed, _, ⟨hrename, rfl⟩, ⟨⟩, _, hsave, _,
    rfl⟩ := h
  obtain ⟨_, rfl⟩ := role_rename_ok_iff.mp hrename
  have hmem : r ∈ w.db.roles.rows := (Table.get_eq_some_iff.mp hr).1
  exact keptBy_save (hI .roles (by decide)) hmem (by rfl) (by rfl) hw hsave

theorem within_renameRole (roleId : Nat) (newName : String) :
    Within [.roles] (RoleService.renameRole roleId newName) := by
  apply within_change (by decide)
  intro r r' h
  obtain ⟨_, rfl⟩ := role_rename_ok_iff.mp h
  exact ⟨rfl, rfl⟩

theorem within_setRoleAgent (roleId : Nat) (agentId : Option Nat) :
    Within [.roles] (RoleService.setAgent roleId agentId) := by
  apply within_change (by decide)
  intro r r' h
  obtain rfl := Except.ok.inj h
  exact ⟨rfl, rfl⟩

theorem within_createAgent {sites : List Site} (organizationId : Nat) (name : String)
    (description : Option String) (hmem : Site.agents ∈ sites) :
    Within sites (AgentService.createAgent organizationId name description) := by
  apply within_bind (within_read _)
  intro _
  apply within_bind (within_read _)
  intro _
  apply within_bind (within_raising _)
  exact fun agent => within_add agent hmem

theorem within_renameAgent (agentId : Nat) (newName : String) :
    Within [.agents] (AgentService.renameAgent agentId newName) := by
  apply within_change (by decide)
  intro a a' h
  obtain ⟨_, rfl⟩ := agent_rename_ok_iff.mp h
  exact ⟨rfl, rfl⟩

theorem within_updateAgent (agentId : Nat) (name : String) (description : Option String) :
    Within [.agents] (AgentService.update agentId name description) := by
  apply within_change (by decide)
  intro a a' h
  obtain ⟨renamed, hr, rfl⟩ := (map_ok_iff _ _ _).mp h
  obtain ⟨_, rfl⟩ := agent_rename_ok_iff.mp hr
  exact ⟨rfl, rfl⟩

theorem within_setAgentActive (agentId : Nat) (active : Bool) :
    Within [.agents] (AgentService.setActive agentId active) := by
  apply within_change (by decide)
  intro a a' h
  obtain rfl := Except.ok.inj h
  cases active
  · exact ⟨rfl, rfl⟩
  · exact ⟨rfl, rfl⟩

end Orchestract
