import Orchestract.Tenancy.Boundary
import Orchestract.Tenancy.PresetAgents

/-!
# Calls that cross the boundary

A call with the id of another tenant's role, agent or workflow stores a reference across the
boundary when nothing else refuses it. No other call does.
-/

namespace Orchestract

set_option autoImplicit false

/-- An agent of another organization. -/
def ForeignAgent (w : World) (organizationId : Nat) (agentId : Option Nat) : Prop :=
  ∃ id a, agentId = some id ∧ w.db.agents.get id = some a ∧ a.organizationId ≠ organizationId

/-- A role of another organization. -/
def ForeignRole (w : World) (organizationId roleId : Nat) : Prop :=
  ∃ r, w.db.roles.get roleId = some r ∧ r.organizationId ≠ organizationId

/-- The call names a row of another tenant, and is not refused for another reason. -/
def Operation.PassesForeign (w : World) : Operation → Prop
  | createUser organizationId name email _ roleId =>
    ForeignRole w organizationId roleId ∧ ¬ EmailTaken w email ∧ Text.strip name ≠ "" ∧
      Text.strip email ≠ "" ∧ ∃ o, w.db.organizations.get organizationId = some o ∧
        o.HasRoom PlanLimits.maxUsers (w.db.users.select fun u => u.organizationId = organizationId).length
  | setUserRole userId roleId =>
    ∃ u, w.db.users.get userId = some u ∧ ForeignRole w u.organizationId roleId
  | updateProfile userId name roleId =>
    ∃ u, w.db.users.get userId = some u ∧ Text.strip name ≠ "" ∧ ForeignRole w u.organizationId roleId
  | createRole organizationId name _ agentId =>
    ForeignAgent w organizationId agentId ∧ Text.strip name ≠ "" ∧ ¬ NameTaken Role w organizationId name ∧
      (w.db.organizations.get organizationId).isSome = true
  | updateRole roleId name _ agentId =>
    ∃ r, w.db.roles.get roleId = some r ∧ ForeignAgent w r.organizationId agentId ∧ Text.strip name ≠ "" ∧
      ¬ NameTakenByOther Role w r.organizationId roleId name
  | setRoleAgent roleId agentId =>
    ∃ r, w.db.roles.get roleId = some r ∧ ForeignAgent w r.organizationId agentId
  | addStep definitionId step =>
    ∃ d, w.db.definitions.get definitionId = some d ∧ ForeignAgent w d.organizationId (some step.agentId) ∧
      d.status = .draft ∧ (∀ s ∈ d.steps, s.key ≠ step.key) ∧
      (step.isInitial = true → ∀ s ∈ d.steps, s.isInitial = false)
  | createContract organizationId title _ workflowDefinitionId _ _ =>
    ∃ o d, w.db.organizations.get organizationId = some o ∧
      o.HasRoom PlanLimits.maxContracts
        (w.db.contracts.select fun c => c.organizationId = organizationId).length ∧
      w.db.definitions.get workflowDefinitionId = some d ∧ d.organizationId ≠ organizationId ∧
      Text.strip title ≠ "" ∧ d.status = .active ∧ ∃ s ∈ d.steps, s.isInitial = true
  | _ => False

def Change.PassesForeign (w : World) : Change → Prop
  | .call i => i.operation.PassesForeign w
  | _ => False

variable {w : World}

/-- What the unit of work leaves behind is closed. -/
def Closes {α : Type} (m : UnitOfWork α) (w : World) : Prop := ∀ a w', m w = .ok (a, w') → TenantClosed w'

theorem tenants_loose {α : Type} {sites : List Site} {m : UnitOfWork α} (h : Within sites m)
    (hsites : ∀ site ∈ sites, site ∈ looseSites) : Work.Keeps TenantClosed m :=
  h TenantClosed fun site hsite => keptBy_tenants (hsites site hsite)

theorem keeps_after {α β : Type} {I : World → Prop} {m : UnitOfWork α} {f : α → UnitOfWork β}
    (hm : Work.Keeps I m) (hf : ∀ a, Work.Keeps I (f a)) : Work.Keeps I (m >>= f) :=
  Work.ensures_bind hm fun a _ => hf a

theorem tenants_raising {α : Type} (x : Except DomainError α) :
    Work.Keeps TenantClosed (liftM x : UnitOfWork α) :=
  ensures_raising fun _ _ => trivial

theorem closes_of_keeps {α : Type} {m : UnitOfWork α} (h : Work.Keeps TenantClosed m) (hw : TenantClosed w) :
    Closes m w :=
  fun a w' hm => (h w hw a w' hm).1

/-! ## Users -/

theorem user_closed_iff {u : User} : u.Closed w ↔
    (w.db.roles.get u.roleId).isSome = true ∧ ¬ ForeignRole w u.organizationId u.roleId := by
  unfold User.Closed ForeignRole
  cases w.db.roles.get u.roleId with
  | none => simp
  | some r => simp

theorem user_closed {u : User} (hrefs : refsExist u w.db = true)
    (hforeign : ¬ ForeignRole w u.organizationId u.roleId) : u.Closed w :=
  user_closed_iff.mpr ⟨(refsExist_user_iff.mp hrefs).2, hforeign⟩

theorem closes_createUser (hw : TenantClosed w) (env : Env) (organizationId : Nat)
    (name email rawPassword : String) (roleId : Nat)
    (h : ¬ (Operation.createUser organizationId name email rawPassword roleId).PassesForeign w) :
    Closes (UserService.createUser env organizationId name email rawPassword roleId) w := by
  intro new w' hnew
  let rows := orderByText User.name (w.db.users.select fun u => u.organizationId = organizationId)
  have hrows : UserService.listUsers organizationId w = .ok rows := rfl
  have hlength : rows.length = (w.db.users.select fun u => u.organizationId = organizationId).length :=
    length_orderByText
  simp only [UserService.createUser, OrganizationService.get, Work.bind_ok_iff, Work.lift_ok_iff,
    require_ok_iff, lift_work_ok_iff, user_create_ok_iff] at hnew
  obtain ⟨o, _, ⟨ho, rfl⟩, _, _, ⟨hroom, rfl⟩, existing, _, ⟨hexisting, rfl⟩, _, _, ⟨hnone, rfl⟩, _, _,
    ⟨⟨hname, hemail, rfl⟩, rfl⟩, hadd⟩ := hnew
  refine (add_tenants_iff hw).mpr (fun hs => user_closed hs.1 fun hforeign => ?_) new w' hadd
  refine h ⟨hforeign, ?_, hname, hemail, o, ho, hlength ▸ (requireRoom_ok_iff hrows).mp hroom⟩
  rintro ⟨v, hv, he⟩
  obtain rfl := Except.ok.inj ((getByEmail_taken hv he).symm.trans hexisting)
  simp at hnone

theorem closes_setUserRole (hw : TenantClosed w) (userId roleId : Nat)
    (h : ¬ (Operation.setUserRole userId roleId).PassesForeign w) :
    Closes (UserService.setRole userId roleId) w := by
  refine (change_tenants_iff hw fun u u' hm => ?_).mpr fun u u' hu hm hrefs _ => ?_
  · obtain rfl := Except.ok.inj hm
    exact ⟨rfl, rfl⟩
  · obtain rfl := Except.ok.inj hm
    exact user_closed hrefs fun hforeign => h ⟨u, hu, hforeign⟩

theorem closes_updateProfile (hw : TenantClosed w) (userId : Nat) (name : String) (roleId : Nat)
    (h : ¬ (Operation.updateProfile userId name roleId).PassesForeign w) :
    Closes (UserService.updateProfile userId name roleId) w := by
  refine (change_tenants_iff hw fun u u' hm => ?_).mpr fun u u' hu hm hrefs _ => ?_
  · obtain ⟨renamed, hrename, rfl⟩ := (map_ok_iff _ _ _).mp hm
    exact ⟨(user_rename_holder hrename).1, (user_rename_holder hrename).2⟩
  · obtain ⟨_, hrename, rfl⟩ := (map_ok_iff _ _ _).mp hm
    obtain ⟨hname, rfl⟩ := user_rename_ok_iff.mp hrename
    exact user_closed hrefs fun hforeign => h ⟨u, hu, hname, hforeign⟩

/-- A user that keeps its role. -/
theorem tenants_changeUser {id : Nat} {method : User → Except DomainError User}
    (h : ∀ u u', method u = .ok u' → u'.id = u.id ∧ u'.organizationId = u.organizationId ∧
      u'.roleId = u.roleId) : Work.Keeps TenantClosed (change "user" id method) := by
  refine tenants_change (fun u u' hm => ?_) fun w u u' hm hu => ?_
  · obtain ⟨hid, horg, _⟩ := h u u' hm
    exact ⟨hid, horg⟩
  · obtain ⟨_, horg, hrole⟩ := h u u' hm
    obtain ⟨r, hr, hrorg⟩ := hu
    exact ⟨r, hrole ▸ hr, hrorg.trans horg.symm⟩

theorem closes_changeHolder (hw : TenantClosed w) (userId : Nat) {method : User → User}
    (h : ∀ u, (method u).id = u.id ∧ (method u).organizationId = u.organizationId ∧
      (method u).roleId = u.roleId) : Closes (Accounts.changeHolder userId method) w := by
  intro a w' hrun
  simp only [Accounts.changeHolder, Work.bind_ok_iff, Work.lift_ok_iff, lift_work_ok_iff, find_apply,
    orRaise_ok_iff, Except.ok.injEq, Work.pure_ok_iff] at hrun
  obtain ⟨_, _, ⟨rfl, rfl⟩, u, _, ⟨hu, rfl⟩, ⟨⟩, _, hsave, _, rfl⟩ := hrun
  have hmem : u ∈ w.db.users.rows := (Table.get_eq_some_iff.mp hu).1
  obtain ⟨hid, horg, hrole⟩ := h u
  obtain ⟨r, hr, hrorg⟩ := hw.users u hmem
  have hclosed : (method u).Closed w := ⟨r, hrole ▸ hr, hrorg.trans horg.symm⟩
  exact tenant_save hw hmem hid horg hclosed hsave

/-- A new account has a role of its own organization. -/
theorem tenants_owner {β : Type} (organization : Organization) (create : Nat → Except DomainError User)
    (hcreate : ∀ roleId u, create roleId = .ok u → u.organizationId = organization.id ∧ u.roleId = roleId)
    (acceptance : User → TermsAcceptance) (result : User → β) : Work.Keeps TenantClosed (do
      let role ← Role.create organization.id "Owner" none none
      let role ← add role
      let user ← create role.id
      let user ← add user
      let _ ← add (acceptance user)
      return result user : UnitOfWork β) := by
  intro w hw b w' h
  simp only [Work.bind_ok_iff, lift_work_ok_iff, Work.pure_ok_iff] at h
  obtain ⟨role, _, ⟨hrole, rfl⟩, stored, w₁, hadd, user, _, ⟨huser, rfl⟩, new, w₂, hnew, _, w₃, haccept, _, rfl⟩ := h
  have hfields : role.organizationId = organization.id ∧ role.agentId = none := by
    obtain ⟨_, rfl⟩ := role_create_ok_iff.mp hrole
    exact ⟨rfl, rfl⟩
  have hroleClosed : role.Closed w := fun id hid => by simp [hfields.2] at hid
  have hw₁ := tenant_add hw hroleClosed hadd
  obtain ⟨horg, hroleId⟩ := hcreate stored.id user huser
  have huserClosed : user.Closed w₁ := by
    obtain ⟨_, t, ht, rfl⟩ := (add_ok_iff role stored w w₁).mp hadd
    refine ⟨stored, hroleId ▸ Table.get_inserted ht, ?_⟩
    obtain ⟨rfl, _, _⟩ := Table.insert_eq_some ht
    exact hfields.1.trans horg.symm
  exact ⟨tenant_add (tenant_add hw₁ huserClosed hnew) (by trivial) haccept, trivial⟩

theorem tenants_register (env : Env) (organizationName userName email rawPassword : String)
    (ipAddress userAgent : Option String) :
    Work.Keeps TenantClosed (RegistrationService.register env organizationName userName email rawPassword
      ipAddress userAgent) := by
  apply Work.ensures_after_read
  intro _
  apply keeps_after (tenants_raising _)
  intro _
  apply keeps_after (tenants_raising _)
  intro o
  apply keeps_after (tenants_loose (within_add o (List.mem_singleton_self _)) (by decide))
  intro organization
  refine tenants_owner organization
    (fun roleId => User.create organization.id userName email (env.hashPassword rawPassword) roleId)
    (fun roleId u hu => ?_)
    (fun user => .record user.id organization.id currentTermsVersion ipAddress userAgent env.now)
    (fun user => (organization, user))
  obtain ⟨_, _, rfl⟩ := user_create_ok_iff.mp hu
  exact ⟨rfl, rfl⟩

theorem tenants_loginOrRegisterGoogle (env : Env) (identity : GoogleIdentity) (termsVersion : String)
    (ipAddress userAgent : Option String) : Work.Keeps TenantClosed
      (SocialAuthService.loginOrRegisterGoogle env identity termsVersion ipAddress userAgent) := by
  apply keeps_after (tenants_raising _)
  intro _
  apply keeps_after (tenants_raising _)
  intro _ w hw a w' h
  obtain ⟨found, _, hread, h⟩ := (Work.bind_ok_iff _ _ w w' a).mp h
  obtain ⟨hfound, rfl⟩ := (Work.lift_ok_iff _ w _ found).mp hread
  cases found with
  | some u =>
    simp only [Work.bind_ok_iff, lift_work_ok_iff, Work.pure_ok_iff] at h
    obtain ⟨_, _, ⟨_, rfl⟩, ⟨⟩, _, hsave, _, rfl⟩ := h
    have hmem : u ∈ w.db.users.rows := (oneOrNone_eq_some hfound).1
    have hclosed : (u.linkGoogle identity.sub env.now).Closed w := hw.users u hmem
    exact ⟨tenant_save hw hmem (by rfl) (by rfl) hclosed hsave, trivial⟩
  | none =>
    refine Work.ensures_after_read (S := fun _ => True) (fun name => ?_) w hw a w' h
    apply keeps_after (tenants_raising _)
    intro o
    apply keeps_after (tenants_loose (within_add o (List.mem_singleton_self _)) (by decide))
    intro organization
    refine tenants_owner organization
      (fun roleId => User.createSocial organization.id
        (if identity.name = "" then identity.email else identity.name) identity.email roleId
        identity.sub env.now)
      (fun roleId u hu => ?_)
      (fun user => .record user.id organization.id termsVersion ipAddress userAgent env.now)
      (fun user => user)
    obtain ⟨_, _, rfl⟩ := createSocial_ok_iff.mp hu
    exact ⟨rfl, rfl⟩

/-! ## Roles -/

theorem role_closed {r : Role} (hrefs : refsExist r w.db = true)
    (hforeign : ¬ ForeignAgent w r.organizationId r.agentId) : r.Closed w := by
  intro id hid
  cases hget : w.db.agents.get id with
  | none => exact absurd ⟨id, hid, hget⟩ (refsExist_role_iff.mp hrefs).2
  | some a =>
    by_contra h
    exact hforeign ⟨id, a, hid, hget, fun horg => h ⟨a, rfl, horg⟩⟩

theorem closes_createRole (hw : TenantClosed w) (organizationId : Nat) (name : String)
    (description : Option String) (agentId : Option Nat)
    (h : ¬ (Operation.createRole organizationId name description agentId).PassesForeign w) :
    Closes (RoleService.createRole organizationId name description agentId) w := by
  intro new w' hnew
  simp only [RoleService.createRole, RoleService.getBySlug, Work.bind_ok_iff, Work.lift_ok_iff,
    lift_work_ok_iff] at hnew
  obtain ⟨existing, _, ⟨hexisting, rfl⟩, _, _, ⟨hnone, rfl⟩, r, _, ⟨hr, rfl⟩, hadd⟩ := hnew
  obtain ⟨hname, rfl⟩ := role_create_ok_iff.mp hr
  refine (add_tenants_iff hw).mpr (fun hs => role_closed hs.1 fun hforeign => ?_) new w' hadd
  refine h ⟨hforeign, hname, ?_, (refsExist_role_iff.mp hs.1).1⟩
  rintro ⟨taken, ht, horg, hslug⟩
  have hfound := bySlug_taken ht
  rw [horg, hslug] at hfound
  obtain rfl := Except.ok.inj (hfound.symm.trans hexisting)
  simp at hnone

theorem closes_updateRole (hw : TenantClosed w) (roleId : Nat) (name : String) (description : Option String)
    (agentId : Option Nat) (h : ¬ (Operation.updateRole roleId name description agentId).PassesForeign w) :
    Closes (RoleService.updateRole roleId name description agentId) w := by
  intro new w' hnew
  simp only [RoleService.updateRole, RoleService.get, Work.bind_ok_iff, Work.lift_ok_iff, require_ok_iff,
    lift_work_ok_iff, Work.pure_ok_iff] at hnew
  obtain ⟨r, _, ⟨hr, rfl⟩, _, _, ⟨_, rfl⟩, _, _, ⟨_, rfl⟩, renamed, _, ⟨hrename, rfl⟩, ⟨⟩, _, hsave, _,
    rfl⟩ := hnew
  obtain ⟨hname, hid, horg, hslug, _⟩ := role_rename_fields hrename
  have hmem : r ∈ w.db.roles.rows := (Table.get_eq_some_iff.mp hr).1
  have hchanged : ((renamed.setDescription description).setAgent agentId).id = r.id := hid
  refine (save_tenants_iff hw hmem hchanged horg).mpr (fun hrefs hapart => ?_) _ hsave
  refine role_closed hrefs fun hforeign => h ⟨r, hr, ?_, hname, ?_⟩
  · exact horg ▸ hforeign
  · have hrow : Row.id ((renamed.setDescription description).setAgent agentId) = roleId :=
      hchanged.trans (Table.get_eq_some_iff.mp hr).2
    exact (apart_slugged_iff hrow horg hslug).mp hapart

theorem tenants_renameRole (roleId : Nat) (newName : String) :
    Work.Keeps TenantClosed (RoleService.renameRole roleId newName) := by
  refine tenants_change (fun r r' hm => ?_) fun w r r' hm hr => ?_
  · obtain ⟨_, hid, horg, _⟩ := role_rename_fields hm
    exact ⟨hid, horg⟩
  · obtain ⟨_, _, horg, _, hagent⟩ := role_rename_fields hm
    intro id hid
    obtain ⟨a, ha, haorg⟩ := hr id (hagent ▸ hid)
    exact ⟨a, ha, haorg.trans horg.symm⟩

theorem closes_setRoleAgent (hw : TenantClosed w) (roleId : Nat) (agentId : Option Nat)
    (h : ¬ (Operation.setRoleAgent roleId agentId).PassesForeign w) :
    Closes (RoleService.setAgent roleId agentId) w := by
  refine (change_tenants_iff hw fun r r' hm => ?_).mpr fun r r' hr hm hrefs _ => ?_
  · obtain rfl := Except.ok.inj hm
    exact ⟨rfl, rfl⟩
  · obtain rfl := Except.ok.inj hm
    exact role_closed hrefs fun hforeign => h ⟨r, hr, hforeign⟩

/-! ## Workflows -/

theorem closes_addStep (hw : TenantClosed w) (definitionId : Nat) (step : WorkflowStep)
    (h : ¬ (Operation.addStep definitionId step).PassesForeign w) :
    Closes (WorkflowService.addStep definitionId step) w := by
  refine (change_tenants_iff hw fun d d' hm => ?_).mpr fun d d' hd hm hrefs _ => ?_
  · obtain ⟨_, _, _, rfl⟩ := WorkflowDefinition.addStep_ok_iff.mp hm
    exact ⟨rfl, rfl⟩
  · obtain ⟨hdraft, hkeys, hinitial, rfl⟩ := WorkflowDefinition.addStep_ok_iff.mp hm
    have hold : d.Closed w := hw.definitions d (Table.get_eq_some_iff.mp hd).1
    intro s hs
    rcases List.mem_append.mp hs with hs | hs
    · exact hold s hs
    · obtain rfl := List.mem_singleton.mp hs
      obtain ⟨a, ha⟩ := Option.isSome_iff_exists.mp ((refsExist_definition_iff.mp hrefs).2 s
        (List.mem_append_right _ (List.mem_singleton_self _)))
      by_contra hforeign
      refine h ⟨d, hd, ⟨s.agentId, a, rfl, ha, fun horg => hforeign ⟨a, ha, horg⟩⟩, hdraft, hkeys, hinitial⟩

/-- A definition that keeps its steps. -/
theorem definition_closed_of_steps {d d' : WorkflowDefinition} (hd : d.Closed w)
    (horg : d'.organizationId = d.organizationId) (hsteps : d'.steps = d.steps) : d'.Closed w := by
  intro s hs
  obtain ⟨a, ha, haorg⟩ := hd s (hsteps ▸ hs)
  exact ⟨a, ha, haorg.trans horg.symm⟩

theorem tenants_addTransition (definitionId : Nat) (transition : WorkflowTransition) :
    Work.Keeps TenantClosed (WorkflowService.addTransition definitionId transition) := by
  refine tenants_change (fun d d' hm => ?_) fun w d d' hm hd => ?_
  · obtain ⟨_, _, _, _, rfl⟩ := WorkflowDefinition.addTransition_ok_iff.mp hm
    exact ⟨rfl, rfl⟩
  · obtain ⟨_, _, _, _, rfl⟩ := WorkflowDefinition.addTransition_ok_iff.mp hm
    exact definition_closed_of_steps hd rfl rfl

theorem tenants_activate (definitionId : Nat) :
    Work.Keeps TenantClosed (WorkflowService.activate definitionId) := by
  refine tenants_change (fun d d' hm => ?_) fun w d d' hm hd => ?_
  · obtain ⟨_, _, rfl⟩ := WorkflowDefinition.activate_ok_iff.mp hm
    exact ⟨rfl, rfl⟩
  · obtain ⟨_, _, rfl⟩ := WorkflowDefinition.activate_ok_iff.mp hm
    exact definition_closed_of_steps hd rfl rfl

theorem tenants_updateDetails (definitionId : Nat) (name : String) (description : Option String) :
    Work.Keeps TenantClosed (WorkflowService.updateDetails definitionId name description) := by
  intro w hw new w' hnew
  simp only [WorkflowService.updateDetails, WorkflowService.get, Work.bind_ok_iff, Work.lift_ok_iff,
    require_ok_iff, lift_work_ok_iff, Work.pure_ok_iff] at hnew
  obtain ⟨d, _, ⟨hd, rfl⟩, _, _, ⟨_, rfl⟩, _, _, ⟨_, rfl⟩, renamed, _, ⟨hrename, rfl⟩, ⟨⟩, _, hsave,
    _, rfl⟩ := hnew
  obtain ⟨_, hid, horg, _, hsteps⟩ := definition_rename_fields hrename
  have hmem : d ∈ w.db.definitions.rows := (Table.get_eq_some_iff.mp hd).1
  have hclosed : (renamed.setDescription description).Closed w :=
    definition_closed_of_steps (hw.definitions d hmem) horg hsteps
  have hrow : (renamed.setDescription description).id = d.id := hid
  exact ⟨tenant_save hw hmem hrow horg hclosed hsave, trivial⟩

/-- A new definition has no steps. -/
theorem tenants_createDefinition (organizationId : Nat) (name : String) (description : Option String) :
    Work.Keeps TenantClosed (WorkflowService.createDefinition organizationId name description) := by
  intro w hw new w' hnew
  simp only [WorkflowService.createDefinition, Work.bind_ok_iff, Work.lift_ok_iff, lift_work_ok_iff] at hnew
  obtain ⟨_, _, ⟨_, rfl⟩, _, _, ⟨_, rfl⟩, d, _, ⟨hd, rfl⟩, hadd⟩ := hnew
  obtain ⟨_, _, hsteps⟩ := definition_create_fields hd
  have hclosed : d.Closed w := fun s hs => by simp [hsteps] at hs
  exact ⟨tenant_add hw hclosed hadd, trivial⟩

/-- A copy has the steps of its source. -/
theorem tenants_duplicateDefinition (definitionId : Nat) :
    Work.Keeps TenantClosed (WorkflowService.duplicateDefinition definitionId) := by
  intro w hw new w' hnew
  simp only [WorkflowService.duplicateDefinition, WorkflowService.get, Work.bind_ok_iff, Work.lift_ok_iff,
    require_ok_iff, lift_work_ok_iff] at hnew
  obtain ⟨source, _, ⟨hsource, rfl⟩, _, _, ⟨_, rfl⟩, copy, _, ⟨hcopy, rfl⟩, d, _, ⟨hd, rfl⟩, hadd⟩ := hnew
  obtain ⟨horg, _, hsteps⟩ := definition_create_fields hcopy
  obtain ⟨horg', _, hsteps'⟩ := replay_fields hd
  rw [hsteps, List.nil_append] at hsteps'
  have hmem : source ∈ w.db.definitions.rows := (Table.get_eq_some_iff.mp hsource).1
  have hclosed : d.Closed w :=
    definition_closed_of_steps (hw.definitions source hmem) (horg'.trans horg) hsteps'
  exact ⟨tenant_add hw hclosed hadd, trivial⟩

/-! ## Presets -/

/-- All of these agents are of the organization. -/
def PresetAgents.OwnedBy (found : PresetAgents) (w : World) (organizationId : Nat) : Prop :=
  ∀ p, p ∈ found.known ∨ p ∈ found.ids → ∃ a, w.db.agents.get p.2 = some a ∧ a.organizationId = organizationId

theorem PresetAgents.Owned.ownedBy {found : PresetAgents} {existing : List String} {organizationId : Nat}
    (h : found.Owned existing organizationId w) : found.OwnedBy w organizationId := by
  intro p hp
  obtain ⟨a, ha, horg, _⟩ := h.owner p hp
  exact ⟨a, ha, horg⟩

/-- A new definition is stored for its organization. -/
theorem createDefinition_get {organizationId : Nat} {name : String} {description : Option String}
    {d : WorkflowDefinition} {w' : World}
    (h : WorkflowService.createDefinition organizationId name description w = .ok (d, w')) :
    w'.db.definitions.get d.id = some d ∧ d.organizationId = organizationId := by
  simp only [WorkflowService.createDefinition, Work.bind_ok_iff, Work.lift_ok_iff, lift_work_ok_iff] at h
  obtain ⟨_, _, ⟨_, rfl⟩, _, _, ⟨_, rfl⟩, draft, _, ⟨hdraft, rfl⟩, hadd⟩ := h
  obtain ⟨_, t, ht, rfl⟩ := (add_ok_iff draft d w w').mp hadd
  refine ⟨Table.get_inserted ht, ?_⟩
  obtain ⟨rfl, _, _⟩ := Table.insert_eq_some ht
  exact (definition_create_fields hdraft).1

/-- The boundary is closed, and the rows of `w` are still there. -/
def ClosedSince (w w' : World) : Prop := w.Holds w' ∧ TenantClosed w'

theorem closedSince_change {definitionId : Nat} (call : WorkflowDefinition.Call)
    {method : WorkflowDefinition → Except DomainError WorkflowDefinition} (hcall : ∀ d, method d = call.result d)
    (h : ∀ w', ClosedSince w w' → Closes (change "workflow definition" definitionId method) w') :
    Work.Keeps (ClosedSince w) (change "workflow definition" definitionId method) := by
  intro w' hw' d w'' hrun
  have hholds : ∀ site ∈ [Site.definitions], KeptBy site w.Holds := fun site _ => keptBy_holds site w
  have hwithin := within_changeDefinition definitionId call (List.mem_singleton_self _) hcall
  exact ⟨⟨within_iff.mp hwithin w.Holds hholds w' d w'' hw'.1 hrun, h w' hw' d w'' hrun⟩, trivial⟩

/-- A step of a preset has an agent of the organization. -/
theorem addPresetStep_closed {agents : PresetAgents} {definition : WorkflowDefinition}
    (hagents : agents.OwnedBy w definition.organizationId)
    (hdefinition : w.db.definitions.get definition.id = some definition) (step : PresetStep) :
    Program.Keeps (ClosedSince w) (addPresetStep definition.id agents step) := by
  unfold addPresetStep
  cases hlookup : agents.ids.lookup step.agent with
  | none => exact Program.keeps_throw _
  | some agentId =>
    apply Program.keeps_bind (Program.keeps_work (closedSince_change
      (.addStep ⟨step.key, step.name, some step.description, agentId, step.isInitial, step.isTerminal⟩)
      (fun _ => rfl) fun w' hw' => ?_))
    · exact fun _ => Program.keeps_pure _
    · refine closes_addStep hw'.2 definition.id _ fun hforeign => ?_
      obtain ⟨d, hd, ⟨id, a, hid, ha, hne⟩, _⟩ := hforeign
      obtain rfl := Option.some.inj hid
      obtain ⟨before, after, hids, _⟩ := List.lookup_eq_some_iff.mp hlookup
      obtain ⟨owned, howned, horg⟩ := hagents _ (Or.inr (hids ▸ List.mem_append_right _ List.mem_cons_self))
      obtain ⟨a', ha', haholder⟩ := hw'.1.agents _ owned howned
      obtain ⟨d', hd', hdholder⟩ := hw'.1.definitions _ definition hdefinition
      obtain rfl := Option.some.inj (ha'.symm.trans ha)
      obtain rfl := Option.some.inj (hd'.symm.trans hd)
      exact hne (haholder.trans (horg.trans hdholder.symm))

/-- The workflow of a preset has steps with agents of the organization only. -/
theorem tenants_presetWorkflow {organizationId : Nat} (preset : WorkflowPreset) {agents : PresetAgents}
    (hw : TenantClosed w) (hagents : agents.OwnedBy w organizationId) :
    TenantClosed (presetWorkflow organizationId preset agents w).2 := by
  unfold presetWorkflow
  rw [Program.bind_apply, Program.read_apply]
  cases uniqueWorkflowName organizationId preset.name w with
  | error e => exact hw
  | ok name =>
    change TenantClosed ((liftM (WorkflowService.createDefinition organizationId name (some preset.description)) >>=
      fun d => _ : Action WorkflowDefinition) w).2
    rw [Program.bind_apply, Program.commit_apply]
    cases hcreate : WorkflowService.createDefinition organizationId name (some preset.description) w with
    | error e => exact hw
    | ok p =>
      obtain ⟨definition, w₁⟩ := p
      have hw₁ := (tenants_createDefinition _ _ _ w hw _ _ hcreate).1
      have hholds : w.Holds w₁ := within_iff.mp (within_createDefinition organizationId name _
        (List.mem_singleton_self _)) w.Holds (fun site _ => keptBy_holds site w) w definition w₁ w.holds_refl hcreate
      obtain ⟨hdefinition, rfl⟩ := createDefinition_get hcreate
      have howned : agents.OwnedBy w₁ definition.organizationId := by
        intro p hp
        obtain ⟨a, ha, horg⟩ := hagents p hp
        obtain ⟨a', ha', hholder⟩ := hholds.agents _ a ha
        exact ⟨a', ha', hholder.trans horg⟩
      have hkeeps : Program.Keeps (ClosedSince w₁) (do
          preset.steps.forM (addPresetStep definition.id agents)
          preset.transitions.forM (addPresetTransition definition.id)
          return definition : Action WorkflowDefinition) := by
        apply Program.keeps_bind (Program.keeps_forM fun step _ => addPresetStep_closed howned hdefinition step)
        intro _
        refine Program.keeps_bind (Program.keeps_forM fun transition _ => ?_) fun _ => Program.keeps_pure _
        refine Program.keeps_bind (Program.keeps_work (closedSince_change (.addTransition transition)
          (fun _ => rfl) fun w' hw' => ?_)) fun _ => Program.keeps_pure _
        exact closes_of_keeps (tenants_addTransition definition.id transition) hw'.2
      exact (hkeeps w₁ ⟨w₁.holds_refl, hw₁⟩).1.2

theorem tenants_preset (hw : TenantClosed w) (organizationId : Nat) (preset : WorkflowPreset) :
    TenantClosed (createWorkflowFromPreset organizationId preset w).2 := by
  rw [createWorkflowFromPreset_apply, Program.bind_apply]
  have hagents : TenantClosed
      (preset.agents.foldlM (ensureAgent organizationId) ⟨knownAgents w organizationId, []⟩ w).2 :=
    ((Program.ensures_foldlM trivial fun found agent _ _ => programWithin_ensureAgent organizationId found agent
      (List.mem_singleton_self _) TenantClosed fun site hsite => keptBy_tenants
        (List.mem_singleton.mp hsite ▸ by decide)) w hw).1
  have howned : ∀ found, (preset.agents.foldlM (ensureAgent organizationId)
      ⟨knownAgents w organizationId, []⟩ w).1 = .ok found →
        found.OwnedBy (preset.agents.foldlM (ensureAgent organizationId)
          ⟨knownAgents w organizationId, []⟩ w).2 organizationId :=
    fun _ h => (ensureAgents_owned (owned_knownAgents w organizationId) h).ownedBy
  generalize preset.agents.foldlM (ensureAgent organizationId) ⟨knownAgents w organizationId, []⟩ w = result
    at hagents howned ⊢
  obtain ⟨answer, w₁⟩ := result
  cases answer with
  | error e => exact hagents
  | ok found => exact tenants_presetWorkflow preset hagents (howned found rfl)

/-! ## Contracts -/

/-- A new contract has a document without versions, and runs through the workflow it is given. -/
theorem closes_createContract (hw : TenantClosed w) (env : Env) (organizationId : Nat)
    (title contractType : String) (workflowDefinitionId : Nat) (actor : String) (description : Option String)
    (h : ¬ (Operation.createContract organizationId title contractType workflowDefinitionId actor
      description).PassesForeign w) :
    Closes (ContractService.createContract env organizationId title contractType workflowDefinitionId actor
      description) w := by
  intro contract w' hrun
  let rows := orderByDesc Contract.updatedAt (w.db.contracts.select fun c => c.organizationId = organizationId)
  have hrows : ContractService.listForOrganization organizationId w = .ok rows := rfl
  have hlength : rows.length = (w.db.contracts.select fun c => c.organizationId = organizationId).length :=
    List.length_insertionSort _ _
  simp only [ContractService.createContract, OrganizationService.get, WorkflowService.get, Work.bind_ok_iff,
    Work.lift_ok_iff, require_ok_iff, lift_work_ok_iff, Work.pure_ok_iff] at hrun
  obtain ⟨o, _, ⟨ho, rfl⟩, _, _, ⟨hroom, rfl⟩, definition, _, ⟨hdefinition, rfl⟩, draft, _, ⟨hdraft, rfl⟩,
    ⟨touched, d⟩, _, ⟨hd, rfl⟩, stored, w₁, hcontract, document, w₂, hdocument, started, _, ⟨hstart, rfl⟩,
    i, w₃, hinstance, rfl, rfl⟩ := hrun
  obtain ⟨htitle, rfl⟩ := contract_create_ok_iff.mp hdraft
  obtain ⟨rfl, hversions, _⟩ := addDocument_fields hd
  obtain ⟨hactive, initial, hinitial, rfl⟩ := WorkflowInstance.start_ok_iff.mp hstart
  have hw₁ : TenantClosed w₁ := tenant_add hw (by trivial) hcontract
  have hget₁ : w₁.db.contracts.get stored.id = some stored ∧ stored.organizationId = organizationId := by
    obtain ⟨_, t, ht, rfl⟩ := (add_ok_iff _ stored w w₁).mp hcontract
    refine ⟨Table.get_inserted ht, ?_⟩
    obtain ⟨rfl, _, _⟩ := Table.insert_eq_some ht
    rfl
  have hdocumentClosed : ({ d with contractId := stored.id } : Document).Closed w₁ :=
    ⟨stored, hget₁.1, fun v hv => by simp [hversions] at hv⟩
  have hw₂ : TenantClosed w₂ := tenant_add hw₁ hdocumentClosed hdocument
  obtain ⟨c₂, hc₂, hholder⟩ := (add_holds hdocument).contracts _ stored hget₁.1
  obtain ⟨d₁, hd₁, hholder₁⟩ := (add_holds hcontract).definitions _ definition hdefinition
  obtain ⟨d₂, hd₂, hholder₂⟩ := (add_holds hdocument).definitions _ d₁ hd₁
  refine tenant_add hw₂ ?_ hinstance
  have hid : definition.id = workflowDefinitionId := (Table.get_eq_some_iff.mp hdefinition).2
  refine ⟨c₂, d₂, hc₂, hid ▸ hd₂, ?_⟩
  have horg : definition.organizationId = organizationId := by
    by_contra hforeign
    refine h ⟨o, definition, ho, hlength ▸ (requireRoom_ok_iff hrows).mp hroom, hdefinition, hforeign, htitle,
      hactive, initial, List.mem_of_find?_eq_some hinitial, ?_⟩
    exact List.find?_some hinitial
  calc d₂.organizationId = definition.organizationId := hholder₂.trans hholder₁
    _ = stored.organizationId := horg.trans hget₁.2.symm
    _ = c₂.organizationId := hholder.symm

theorem tenants_transitionContract (env : Env) (contractId : Nat) (actionName actor : String)
    (comment : Option String) : Work.Keeps TenantClosed
      (ContractService.transitionContract env contractId actionName actor comment) := by
  intro w hw a w' h
  obtain ⟨r, d, hr, _, hmove, hsave⟩ :=
    (ContractService.transitionContract_ok_iff env contractId actionName actor comment w w' a).mp h
  have hresult : (⟨actionName, actor, comment, env.now⟩ : WorkflowInstance.Call).result d r = .ok a := hmove
  obtain ⟨_, _, _, target, _, rfl⟩ := WorkflowInstance.result_ok_iff.mp hresult
  have hmem : r ∈ w.db.instances.rows := (ContractService.getInstance_ok hr).1
  have hclosed : (r.moved target ⟨actionName, actor, comment, env.now⟩).Closed w := hw.instances r hmem
  exact ⟨tenant_save hw hmem (by rfl) (by rfl) hclosed hsave, trivial⟩

theorem tenants_addDocument (env : Env) (contractId : Nat) (name : String) :
    Work.Keeps TenantClosed (ContractService.addDocument env contractId name) := by
  intro w hw a w' h
  obtain ⟨c, d, w₁, hc, hcontract, hversions, hsave, hadd⟩ := ContractService.addDocument_ok h
  have hmem : c ∈ w.db.contracts.rows := (Table.get_eq_some_iff.mp hc).1
  have hw₁ : TenantClosed w₁ := tenant_save hw hmem (by rfl) (by rfl) (by trivial) hsave
  obtain ⟨c₁, hc₁, _⟩ := (keptBy_save (keptBy_holds .contracts w) hmem (by rfl) (by rfl) w.holds_refl
    hsave).contracts contractId c hc
  have hclosed : d.Closed w₁ := ⟨c₁, hcontract ▸ hc₁, fun v hv => by simp [hversions] at hv⟩
  exact ⟨tenant_add hw₁ hclosed hadd, trivial⟩

theorem tenants_setDocumentSummary (env : Env) (documentId : Nat) (summary : String) :
    Work.Keeps TenantClosed (DocumentService.setSummary env documentId summary) := by
  refine tenants_change (fun d d' hm => ?_) fun w d d' hm hd => ?_
  · obtain rfl := Except.ok.inj hm
    exact ⟨rfl, rfl⟩
  · obtain rfl := Except.ok.inj hm
    exact hd

/-- The new version is kept by a connection of the contract's organization. -/
theorem tenants_upload (hw : TenantClosed w) (env : Env) (documentId : Nat) (u : DocumentService.Upload)
    (commits : Bool) : TenantClosed (Operation.upload env documentId u commits w).2 := by
  have hfiles : KeptBy .files TenantClosed := keptBy_tenants (by decide)
  rcases DocumentService.upload_cases env documentId u commits w with
    ⟨e, he⟩ | ⟨t, horg, ⟨e, he⟩ | ⟨documents, hdocuments, hok⟩⟩
  · rw [he]
    exact hw
  · rw [he]
    exact hfiles w _ hw
  · rw [hok]
    have hids : KeptBy .versionIds TenantClosed := keptBy_tenants (by decide)
    have hmem : t.document ∈ w.db.documents.rows := (Table.get_eq_some_iff.mp t.document_get).1
    have hclosed : (t.document.addVersion (t.version u) env.now).Closed w := by
      refine ⟨t.contract, t.contract_get, fun v hv => ?_⟩
      rcases List.mem_append.mp hv with hv | hv
      · obtain ⟨c, hc, hversions⟩ := hw.documents t.document hmem
        obtain rfl := Option.some.inj (t.contract_get.symm.trans hc)
        exact hversions v hv
      · obtain rfl := List.mem_singleton.mp hv
        exact ⟨t.connection, Table.get_eq_some_iff.mpr ⟨t.connection_mem, rfl⟩, horg⟩
    have hwritten : TenantClosed { w with db := { w.db with documents := documents } } := by
      refine tenantClosed_write (α := Document) hw ?_ (fun n hn => ?_) fun d hd => ?_
      · exact { w.holds_refl with
          documents := Table.holds_update hdocuments (Table.get_eq_some_iff.mpr ⟨hmem, rfl⟩) rfl }
      · cases n <;> first | rfl | exact absurd rfl hn
      · rcases Table.mem_update hdocuments hd with rfl | ⟨hd, _⟩
        · exact hclosed
        · exact hw.documents d hd
    exact hids _ _ (hfiles _ _ hwritten)

/-- A link names documents of its contract only. -/
theorem tenants_createLink (env : Env) (contractId : Nat) (scope : ShareScope) (allowDownload : Bool)
    (expiresInHours : Nat) (createdBy : String) (documentIds : List Nat) (rawPassword : Option String) :
    Work.Keeps TenantClosed (SharingService.createLink env contractId scope allowDownload expiresInHours
      createdBy documentIds rawPassword) := by
  intro w hw l w' h
  obtain ⟨_, ids, _, _, _, hids, hadd⟩ := SharingService.createLink_ok h
  refine ⟨tenant_add hw (fun id hid => ?_) hadd, trivial⟩
  split at hid
  · exact hids id hid
  · cases hid

theorem tenants_revokeLink (env : Env) (contractId linkId : Nat) :
    Work.Keeps TenantClosed (SharingService.revoke env contractId linkId) := by
  intro w hw a w' h
  obtain ⟨l, hl, _, hsave⟩ := revoke_ok h
  have hmem : l ∈ w.db.shareLinks.rows := (Table.get_eq_some_iff.mp hl).1
  obtain ⟨hid, hcontract, _, _, hdocuments⟩ := shareLink_revoke_fields l env.now
  have hclosed : (l.revoke env.now).Closed w := by
    intro id hid
    rw [hcontract]
    exact hw.shareLinks l hmem id (hdocuments ▸ hid)
  exact ⟨tenant_save hw hmem hid hcontract hclosed hsave, trivial⟩

theorem tenants_markAccessed (env : Env) (token : String) :
    Work.Keeps TenantClosed (SharingService.markAccessed env token) := by
  intro w hw a w' h
  refine ⟨?_, trivial⟩
  rcases SharingService.markAccessed_ok h with rfl | ⟨l, hl, hsave⟩
  · exact hw
  · have hclosed : (l.recordAccess env.now).Closed w := hw.shareLinks l hl
    exact tenant_save hw hl (by rfl) (by rfl) hclosed hsave

/-! ## Runs -/

theorem perform_tenants {s : System} {i : Input} (hs : TenantClosed s.world)
    (h : ¬ i.operation.PassesForeign s.world) : TenantClosed (perform s i).world := by
  obtain ⟨env, operation⟩ := i
  have hloose : (∀ site ∈ operation.footprint, site ∈ looseSites) → TenantClosed (perform s ⟨env, operation⟩).world :=
    fun hsites => perform_keeps (fun site hsite => keptBy_tenants (hsites site hsite)) hs
  have hunit : ∀ {α : Type} {m : UnitOfWork α}, Work.Keeps TenantClosed m →
      TenantClosed (Operation.unit m s).2.world :=
    fun hkeeps => unit_world (closes_of_keeps hkeeps hs) hs
  cases operation with
  | register organizationName userName email rawPassword ipAddress userAgent =>
    exact unitWithTokens_world (keeps_register (tenants_register env organizationName userName email rawPassword
      ipAddress userAgent)) hs
  | loginOrRegisterGoogle identity termsVersion ipAddress userAgent =>
    exact hunit (tenants_loginOrRegisterGoogle env identity termsVersion ipAddress userAgent)
  | verifyEmail token =>
    refine unitWithTokens_world (keeps_redeem (fun userId w hw a w' hm => ⟨?_, trivial⟩) env token _) hs
    refine closes_changeHolder hw userId ?_ a w' hm
    exact fun _ => ⟨rfl, rfl, rfl⟩
  | resetPassword token newPassword =>
    refine unitWithTokens_world (keeps_redeem (fun userId w hw a w' hm => ⟨?_, trivial⟩) env token _) hs
    refine closes_changeHolder hw userId ?_ a w' hm
    exact fun _ => ⟨rfl, rfl, rfl⟩
  | createUser organizationId name email rawPassword roleId =>
    exact unit_world (closes_createUser hs env organizationId name email rawPassword roleId h) hs
  | setUserActive userId active =>
    refine hunit (tenants_changeUser fun u u' hm => ?_)
    obtain rfl := Except.ok.inj hm
    cases active <;> exact ⟨rfl, rfl, rfl⟩
  | setUserRole userId roleId => exact unit_world (closes_setUserRole hs userId roleId h) hs
  | setLocale userId locale =>
    refine hunit (tenants_changeUser fun u u' hm => ?_)
    obtain rfl := Except.ok.inj hm
    exact ⟨rfl, rfl, rfl⟩
  | updateProfile userId name roleId => exact unit_world (closes_updateProfile hs userId name roleId h) hs
  | renameUser userId newName =>
    refine hunit (tenants_changeUser fun u u' hm => ?_)
    obtain ⟨_, rfl⟩ := user_rename_ok_iff.mp hm
    exact ⟨rfl, rfl, rfl⟩
  | changePassword userId currentPassword newPassword =>
    refine hunit (tenants_changeUser fun u u' hm => ?_)
    obtain ⟨_, _, hm⟩ := (bind_ok_iff _ _ _).mp hm
    obtain rfl := Except.ok.inj hm
    exact ⟨rfl, rfl, rfl⟩
  | forceVerify userId =>
    refine hunit (tenants_changeUser fun u u' hm => ?_)
    obtain rfl := Except.ok.inj hm
    exact ⟨rfl, rfl, rfl⟩
  | createRole organizationId name description agentId =>
    exact unit_world (closes_createRole hs organizationId name description agentId h) hs
  | updateRole roleId name description agentId =>
    exact unit_world (closes_updateRole hs roleId name description agentId h) hs
  | renameRole roleId newName => exact hunit (tenants_renameRole roleId newName)
  | setRoleAgent roleId agentId => exact unit_world (closes_setRoleAgent hs roleId agentId h) hs
  | createDefinition organizationId name description =>
    exact hunit (tenants_createDefinition organizationId name description)
  | updateDetails definitionId name description =>
    exact hunit (tenants_updateDetails definitionId name description)
  | addStep definitionId step => exact unit_world (closes_addStep hs definitionId step h) hs
  | addTransition definitionId transition => exact hunit (tenants_addTransition definitionId transition)
  | activate definitionId => exact hunit (tenants_activate definitionId)
  | duplicateDefinition definitionId => exact hunit (tenants_duplicateDefinition definitionId)
  | createWorkflowFromPreset organizationId preset =>
    have hpreset := tenants_preset hs organizationId preset
    change TenantClosed (((fun _ => ()) <$> createWorkflowFromPreset organizationId preset : Action Unit) s.world).2
    rw [map_eq_pure_bind, Program.bind_pure_state]
    exact hpreset
  | createContract organizationId title contractType workflowDefinitionId actor description =>
    exact unit_world (closes_createContract hs env organizationId title contractType workflowDefinitionId actor
      description h) hs
  | transitionContract contractId actionName actor comment =>
    exact hunit (tenants_transitionContract env contractId actionName actor comment)
  | addDocument contractId name => exact hunit (tenants_addDocument env contractId name)
  | setDocumentSummary documentId summary => exact hunit (tenants_setDocumentSummary env documentId summary)
  | uploadVersion documentId u commits =>
    change TenantClosed (((fun _ => ()) <$> Operation.upload env documentId u commits : Action Unit) s.world).2
    rw [map_eq_pure_bind, Program.bind_pure_state]
    exact tenants_upload hs env documentId u commits
  | importVersion documentId connectionId externalFileId uploadedBy notes commits =>
    have hkeeps : Program.Keeps TenantClosed (do
        let u ← Operation.imported env connectionId externalFileId uploadedBy notes
        let _ ← Operation.upload env documentId u commits
        return () : Action Unit) := by
      apply Program.keeps_after_read
      intro u
      apply Program.keeps_bind
      · exact fun w hw => ⟨tenants_upload hw env documentId u commits, fun _ _ => trivial⟩
      · exact fun _ => Program.keeps_pure _
    exact (hkeeps s.world hs).1
  | createLink contractId scope allowDownload expiresInHours createdBy documentIds rawPassword =>
    exact hunit (tenants_createLink env contractId scope allowDownload expiresInHours createdBy documentIds
      rawPassword)
  | revokeLink contractId linkId => exact hunit (tenants_revokeLink env contractId linkId)
  | _ => exact hloose (by simp [Operation.footprint, looseSites])

/-- A change leaves the boundary closed, unless it passes the id of another tenant's row. -/
theorem next_tenants {s : System} {c : Change} (hs : TenantClosed s.world) (h : ¬ c.PassesForeign s.world) :
    TenantClosed (s.next c).world := by
  cases c with
  | call i => exact perform_tenants hs h
  | delivery settings event =>
    exact next_keeps (fun site hsite => keptBy_tenants (List.mem_singleton.mp hsite ▸ by decide)) hs
  | setPlan organizationId plan =>
    exact next_keeps (fun site hsite => keptBy_tenants (List.mem_singleton.mp hsite ▸ by decide)) hs
  | deleteSession token =>
    exact next_keeps (fun site hsite => keptBy_tenants (List.mem_singleton.mp hsite ▸ by decide)) hs
  | visit env token => exact unit_world (closes_of_keeps (tenants_markAccessed env token) hs) hs

theorem tenantClosed_initial (files : Bucket → String → Option Bytes) :
    TenantClosed (System.initial files).world where
  users _ h := by cases h
  roles _ h := by cases h
  definitions _ h := by cases h
  instances _ h := by cases h
  documents _ h := by cases h
  shareLinks _ h := by cases h

/-- No row refers to another tenant's, as long as no call that is not refused passes such an id. -/
theorem tenantClosed_after (files : Bucket → String → Option Bytes) (changes : List Change)
    (h : Runs.Along System.next (fun s c => ¬ c.PassesForeign s.world) (.initial files) changes) :
    TenantClosed (System.after files changes).world :=
  Runs.run_invariant_along (I := fun s : System => TenantClosed s.world) (fun _ _ hs hc => next_tenants hs hc)
    (tenantClosed_initial files) h

theorem tenantClosed_firstRole :
    TenantClosed (System.after (fun _ _ => none) [.call ⟨.offline 1 "", .createOrganization "Acme"⟩,
      .call ⟨.offline 2 "", .createRole 1 "Owner" none none⟩]).world := by
  refine tenantClosed_after _ _ ⟨fun h => h, fun h => ?_, trivial⟩
  obtain ⟨⟨_, _, hid, _⟩, _⟩ := h
  cases hid

/-- A role that is created with the id of another tenant's agent. -/
theorem not_tenantClosed_foreignAgent :
    ¬ TenantClosed (System.after (fun _ _ => none) [.call ⟨.offline 1 "", .createOrganization "Acme"⟩,
      .call ⟨.offline 2 "", .createOrganization "Globex"⟩, .call ⟨.offline 3 "", .createAgent 2 "Signing" none⟩,
      .call ⟨.offline 4 "", .createRole 1 "Owner" none (some 1)⟩]).world := by
  intro h
  obtain ⟨a, ha, horg⟩ := h.roles ⟨1, 1, "Owner", "owner", none, some 1⟩ (by decide +kernel) 1 rfl
  have hagent : (System.after (fun _ _ => none) [.call ⟨.offline 1 "", .createOrganization "Acme"⟩,
      .call ⟨.offline 2 "", .createOrganization "Globex"⟩, .call ⟨.offline 3 "", .createAgent 2 "Signing" none⟩,
      .call ⟨.offline 4 "", .createRole 1 "Owner" none (some 1)⟩]).world.db.agents.get 1 =
        some ⟨1, 2, "Signing", "signing", none, true⟩ := by decide +kernel
  obtain rfl := Option.some.inj (ha.symm.trans hagent)
  exact absurd horg (by decide)

end Orchestract
