import Orchestract.Operations.Committed

/-!
# The commits of accounts, roles and agents

A unit of work of these services is made of steps of `Committed`: one lemma for each method.
-/

namespace Orchestract

set_option autoImplicit false

variable {i : Input}

/-- Whatever the unit of work commits is made of steps. -/
def Commits {α : Type} (i : Input) (m : UnitOfWork α) : Prop :=
  ∀ w a w', m w = .ok (a, w') → Relation.ReflTransGen (Committed i) w w'

/-- The check of the plan, passed. -/
theorem hasRoom_of_requireRoom {α : Type} {o : Organization} {limit : PlanLimits → Option Nat}
    {plural : String} {existing : Query (List α)} {w : World} {u : Unit} {count : Nat}
    (h : requireRoom o limit plural existing w = .ok u)
    (hcount : ∀ rows, existing w = .ok rows → rows.length = count) : o.HasRoom limit count := by
  intro m hm
  unfold requireRoom at h
  simp only [hm, Read.bind_ok_iff, lift_query_ok_iff, raiseIf_ok_iff, Nat.not_le] at h
  obtain ⟨rows, hrows, hlt⟩ := h
  rw [← hcount rows hrows]
  exact hlt

theorem length_orderByText {α : Type} {column : α → String} {rows : List α} :
    (orderByText column rows).length = rows.length := List.length_insertionSort _ _

section

variable {α : Type} [Row α] [Stored α]

/-- A change of one row is one step. -/
theorem commits_change {what : String} {id : Nat} {method : α → Except DomainError α}
    (h : ∀ w row row' t, row ∈ (Stored.table w.db : Table α).rows → method row = .ok row' →
      refsExist row' w.db = true → (Stored.table w.db).update row' = some t →
      Committed i w { w with db := Stored.withTable w.db t }) :
    Commits i (change what id method) := by
  intro w a w' hchange
  obtain ⟨row, hrow, hmethod, hsave⟩ := (change_ok_iff what id method a w w').mp hchange
  obtain ⟨hrefs, t, ht, rfl⟩ := (save_ok_iff a w w').mp hsave
  exact .single (h w row a t (Table.get_eq_some_iff.mp hrow).1 hmethod hrefs ht)

end

/-! ## Users, roles and agents -/

theorem commits_createOrganization (name : String) :
    Commits i (OrganizationService.createOrganization name) := by
  intro w new w' h
  simp only [OrganizationService.createOrganization, Work.bind_ok_iff, lift_work_ok_iff] at h
  obtain ⟨o, _, ⟨_, rfl⟩, hadd⟩ := h
  obtain ⟨_, t, ht, rfl⟩ := (add_ok_iff o new w w').mp hadd
  exact .single (.newOrganization ht)

theorem create_user {organizationId : Nat} {name email passwordHash : String} {roleId : Nat} {u : User}
    (h : User.create organizationId name email passwordHash roleId = .ok u) :
    u.organizationId = organizationId ∧ u.roleId = roleId ∧ u.passwordHash = some passwordHash := by
  simp only [User.create, bind_ok_iff, return_ok_iff] at h
  obtain ⟨_, _, _, _, rfl⟩ := h
  exact ⟨rfl, rfl, rfl⟩

theorem commits_createUser {organizationId : Nat} {name email rawPassword : String} {roleId : Nat}
    (hp : i.operation.password = some rawPassword) :
    Commits i (UserService.createUser i.env organizationId name email rawPassword roleId) := by
  intro w new w' h
  simp only [UserService.createUser, OrganizationService.get, Work.bind_ok_iff, Work.lift_ok_iff,
    require_ok_iff, lift_work_ok_iff] at h
  obtain ⟨o, _, ⟨ho, rfl⟩, _, _, ⟨hroom, rfl⟩, _, _, ⟨_, rfl⟩, _, _, ⟨_, rfl⟩, u, _, ⟨hu, rfl⟩, hadd⟩ := h
  obtain ⟨hrefs, t, ht, rfl⟩ := (add_ok_iff u new w w').mp hadd
  obtain ⟨horg, _, hhash⟩ := create_user hu
  refine .single (.newUser (o := o) (horg ▸ ho) hrefs ?_ ht (Or.inl ⟨rawPassword, hp, hhash⟩))
  apply hasRoom_of_requireRoom hroom
  intro rows hrows
  simp only [UserService.listUsers, Read.bind_ok_iff, select_apply, Except.ok.injEq,
    Read.pure_apply] at hrows
  obtain ⟨_, rfl, rfl⟩ := hrows
  rw [length_orderByText, horg]
  rfl

/-- A method of a user that neither sets a password nor verifies the address. -/
theorem userEdit_of_eq {u u' : User} (hid : u'.id = u.id) (horg : u'.organizationId = u.organizationId)
    (hemail : u'.email = u.email) (hhash : u'.passwordHash = u.passwordHash)
    (hverified : u'.emailVerifiedAt = u.emailVerifiedAt) : UserEdit i u u' :=
  ⟨hid, horg, hemail, Or.inl hhash, fun h => by rwa [User.isEmailVerified, hverified]⟩

theorem user_rename_ok_iff {u u' : User} {newName : String} :
    u.rename newName = .ok u' ↔
      Text.strip newName ≠ "" ∧ { u with name := Text.strip newName } = u' := by
  simp [User.rename]

theorem commits_changeUser {id : Nat} {method : User → Except DomainError User}
    (h : ∀ u u', method u = .ok u' → UserEdit i u u') : Commits i (change "user" id method) :=
  commits_change fun _ u u' _ hu hm hrefs ht => .user hu (h u u' hm) hrefs ht

theorem commits_setUserActive (userId : Nat) (active : Bool) :
    Commits i (UserService.setActive userId active) := by
  apply commits_changeUser
  intro u u' h
  obtain rfl := Except.ok.inj h
  cases active
  · exact userEdit_of_eq rfl rfl rfl rfl rfl
  · exact userEdit_of_eq rfl rfl rfl rfl rfl

theorem commits_setUserRole (userId roleId : Nat) : Commits i (UserService.setRole userId roleId) := by
  apply commits_changeUser
  intro u u' h
  obtain rfl := Except.ok.inj h
  exact userEdit_of_eq rfl rfl rfl rfl rfl

theorem commits_setLocale (userId : Nat) (locale : Option String) :
    Commits i (UserService.setLocale userId locale) := by
  apply commits_changeUser
  intro u u' h
  obtain rfl := Except.ok.inj h
  exact userEdit_of_eq rfl rfl rfl rfl rfl

theorem commits_updateProfile (userId : Nat) (name : String) (roleId : Nat) :
    Commits i (UserService.updateProfile userId name roleId) := by
  apply commits_changeUser
  intro u u' h
  obtain ⟨renamed, hr, rfl⟩ := (map_ok_iff _ _ _).mp h
  obtain ⟨_, rfl⟩ := user_rename_ok_iff.mp hr
  exact userEdit_of_eq rfl rfl rfl rfl rfl

theorem commits_renameUser (userId : Nat) (newName : String) :
    Commits i (UserService.rename userId newName) := by
  apply commits_changeUser
  intro u u' h
  obtain ⟨_, rfl⟩ := user_rename_ok_iff.mp h
  exact userEdit_of_eq rfl rfl rfl rfl rfl

theorem commits_changePassword {userId : Nat} {currentPassword newPassword : String}
    (hp : i.operation.password = some newPassword) :
    Commits i (UserService.changePassword i.env userId currentPassword newPassword) := by
  apply commits_changeUser
  intro u u' h
  simp only [bind_ok_iff, return_ok_iff] at h
  obtain ⟨_, _, rfl⟩ := h
  exact ⟨rfl, rfl, rfl, Or.inr ⟨newPassword, hp, rfl⟩, id⟩

theorem commits_forceVerify (env : Env) (userId : Nat) : Commits i (UserService.forceVerify env userId) := by
  apply commits_changeUser
  intro u u' h
  obtain rfl := Except.ok.inj h
  exact ⟨rfl, rfl, rfl, Or.inl rfl, fun _ => rfl⟩

theorem commits_changeHolder (userId : Nat) {method : User → User}
    (h : ∀ u, UserEdit i u (method u)) : Commits i (Accounts.changeHolder userId method) := by
  intro w a w' hchange
  simp only [Accounts.changeHolder, Work.bind_ok_iff, Work.lift_ok_iff, find_apply, Except.ok.injEq,
    lift_work_ok_iff, orRaise_ok_iff, Work.pure_ok_iff] at hchange
  obtain ⟨_, _, ⟨rfl, rfl⟩, u, _, ⟨hu, rfl⟩, ⟨⟩, _, hsave, rfl, rfl⟩ := hchange
  obtain ⟨hrefs, t, ht, rfl⟩ := (save_ok_iff (method u) w _).mp hsave
  exact .single (.user (Table.get_eq_some_iff.mp hu).1 (h u) hrefs ht)

theorem commits_createSession (env : Env) (userId : Nat) :
    Commits i (UserService.createSession env userId) := by
  intro w new w' h
  obtain ⟨_, t, _, rfl⟩ := (add_ok_iff _ new w w').mp h
  exact .single (.sessions t)

theorem commits_recordAcceptance (env : Env) (userId organizationId : Nat)
    (ipAddress userAgent : Option String) :
    Commits i (ComplianceService.recordAcceptance env userId organizationId ipAddress userAgent) := by
  intro w new w' h
  obtain ⟨_, t, _, rfl⟩ := (add_ok_iff _ new w w').mp h
  exact .single (.acceptances t)

theorem commits_createRole (organizationId : Nat) (name : String) (description : Option String)
    (agentId : Option Nat) : Commits i (RoleService.createRole organizationId name description agentId) := by
  intro w new w' h
  simp only [RoleService.createRole, Work.bind_ok_iff, Work.lift_ok_iff, lift_work_ok_iff] at h
  obtain ⟨_, _, ⟨_, rfl⟩, _, _, ⟨_, rfl⟩, r, _, ⟨_, rfl⟩, hadd⟩ := h
  obtain ⟨hrefs, t, ht, rfl⟩ := (add_ok_iff r new w w').mp hadd
  exact .single (.newRole hrefs ht)

theorem commits_updateRole (roleId : Nat) (name : String) (description : Option String)
    (agentId : Option Nat) : Commits i (RoleService.updateRole roleId name description agentId) := by
  intro w a w' h
  simp only [RoleService.updateRole, Work.bind_ok_iff, Work.lift_ok_iff, lift_work_ok_iff,
    Work.pure_ok_iff] at h
  obtain ⟨_, _, ⟨_, rfl⟩, _, _, ⟨_, rfl⟩, _, _, ⟨_, rfl⟩, _, _, ⟨_, rfl⟩, ⟨⟩, _, hsave, _, rfl⟩ := h
  obtain ⟨hrefs, t, ht, rfl⟩ := (save_ok_iff _ w _).mp hsave
  exact .single (.role hrefs ht)

theorem commits_changeRole (roleId : Nat) (method : Role → Except DomainError Role) :
    Commits i (change "role" roleId method) :=
  commits_change fun _ _ _ _ _ _ hrefs ht => .role hrefs ht

theorem commits_createAgent (organizationId : Nat) (name : String) (description : Option String) :
    Commits i (AgentService.createAgent organizationId name description) := by
  intro w new w' h
  simp only [AgentService.createAgent, OrganizationService.get, Work.bind_ok_iff, Work.lift_ok_iff,
    require_ok_iff, lift_work_ok_iff] at h
  obtain ⟨o, _, ⟨ho, rfl⟩, _, _, ⟨hroom, rfl⟩, a, _, ⟨ha, rfl⟩, hadd⟩ := h
  obtain ⟨_, t, ht, rfl⟩ := (add_ok_iff a new w w').mp hadd
  simp only [Agent.create, bind_ok_iff, return_ok_iff] at ha
  obtain ⟨_, _, rfl⟩ := ha
  refine .single (.newAgent (o := o) ho ?_ ht)
  apply hasRoom_of_requireRoom hroom
  intro rows hrows
  simp only [AgentService.listAgents, Read.bind_ok_iff, select_apply, Except.ok.injEq,
    Read.pure_apply] at hrows
  obtain ⟨_, rfl, rfl⟩ := hrows
  exact length_orderByText

theorem agent_rename_ok_iff {a a' : Agent} {newName : String} :
    a.rename newName = .ok a' ↔ Text.strip newName ≠ "" ∧
      { a with name := Text.strip newName, slug := Text.slugify (Text.strip newName) } = a' := by
  simp [Agent.rename]

theorem commits_changeAgent {agentId : Nat} {method : Agent → Except DomainError Agent}
    (h : ∀ a a', method a = .ok a' → a'.id = a.id ∧ a'.organizationId = a.organizationId) :
    Commits i (change "agent" agentId method) :=
  commits_change fun _ a a' _ ha hm _ ht => .agent ha (h a a' hm).1 (h a a' hm).2 ht

theorem commits_renameAgent (agentId : Nat) (newName : String) :
    Commits i (AgentService.renameAgent agentId newName) := by
  apply commits_changeAgent
  intro a a' h
  obtain ⟨_, rfl⟩ := agent_rename_ok_iff.mp h
  exact ⟨rfl, rfl⟩

theorem commits_updateAgent (agentId : Nat) (name : String) (description : Option String) :
    Commits i (AgentService.update agentId name description) := by
  apply commits_changeAgent
  intro a a' h
  obtain ⟨_, hr, rfl⟩ := (map_ok_iff _ _ _).mp h
  obtain ⟨_, rfl⟩ := agent_rename_ok_iff.mp hr
  exact ⟨rfl, rfl⟩

theorem commits_setAgentActive (agentId : Nat) (active : Bool) :
    Commits i (AgentService.setActive agentId active) := by
  apply commits_changeAgent
  intro a a' h
  obtain rfl := Except.ok.inj h
  cases active
  · exact ⟨rfl, rfl⟩
  · exact ⟨rfl, rfl⟩

/-! ## Registration and tokens -/

/-- The four rows of a new account, stored in one unit of work. -/
theorem committed_newAccount {o organization : Organization} {r role : Role} {u user : User}
    {a new : TermsAcceptance} {w w₁ w₂ w₃ w₄ : World} (ho : add o w = .ok (organization, w₁))
    (free : o.plan = .free) (hr : add r w₁ = .ok (role, w₂)) (roleOf : r.organizationId = organization.id)
    (unlinked : r.agentId = none) (hu : add u w₂ = .ok (user, w₃))
    (userOf : u.organizationId = organization.id) (owner : u.roleId = role.id) (hnew : NewUser i u)
    (ha : add a w₃ = .ok (new, w₄)) : Committed i w w₄ := by
  obtain ⟨_, os, hos, rfl⟩ := (add_ok_iff o organization w w₁).mp ho
  obtain ⟨_, rs, hrs, rfl⟩ := (add_ok_iff r role _ w₂).mp hr
  obtain ⟨_, us, hus, rfl⟩ := (add_ok_iff u user _ w₃).mp hu
  obtain ⟨_, as, _, rfl⟩ := (add_ok_iff a new _ w₄).mp ha
  exact .newAccount hos free hrs roleOf unlinked hus userOf owner hnew

theorem organization_create_ok_iff {name : String} {o : Organization} :
    Organization.create name = .ok o ↔ Text.strip name ≠ "" ∧
      ⟨0, Text.strip name, Text.slugify (Text.strip name), .free, none, none, none⟩ = o := by
  simp [Organization.create]

theorem role_create_ok_iff {organizationId : Nat} {name : String} {description : Option String}
    {agentId : Option Nat} {r : Role} :
    Role.create organizationId name description agentId = .ok r ↔ Text.strip name ≠ "" ∧
      ⟨0, organizationId, Text.strip name, Text.slugify (Text.strip name), description, agentId⟩ = r := by
  simp [Role.create]

theorem commits_register {organizationName userName email rawPassword : String} {ipAddress userAgent : Option String}
    (hp : i.operation.password = some rawPassword) :
    Commits i (RegistrationService.register i.env organizationName userName email rawPassword
      ipAddress userAgent) := by
  intro w a w' h
  simp only [RegistrationService.register, Work.bind_ok_iff, Work.lift_ok_iff, lift_work_ok_iff,
    Work.pure_ok_iff] at h
  obtain ⟨_, _, ⟨_, rfl⟩, _, _, ⟨_, rfl⟩, o, _, ⟨ho, rfl⟩, organization, w₁, hos, r, _, ⟨hr, rfl⟩,
    role, w₂, hrs, u, _, ⟨hu, rfl⟩, user, w₃, hus, acceptance, w₄, has, _, rfl⟩ := h
  obtain ⟨_, rfl⟩ := organization_create_ok_iff.mp ho
  obtain ⟨_, rfl⟩ := role_create_ok_iff.mp hr
  obtain ⟨horg, hrole, hhash⟩ := create_user hu
  exact .single (committed_newAccount hos rfl hrs rfl rfl hus horg hrole
    (Or.inl ⟨rawPassword, hp, hhash⟩) has)

theorem createSocial_ok {organizationId roleId now : Nat} {name email googleSub : String} {u : User}
    (h : User.createSocial organizationId name email roleId googleSub now = .ok u) :
    u.organizationId = organizationId ∧ u.roleId = roleId ∧ NewUser i u := by
  simp only [User.createSocial, bind_ok_iff, return_ok_iff] at h
  obtain ⟨_, _, _, _, rfl⟩ := h
  exact ⟨rfl, rfl, Or.inr ⟨rfl, rfl⟩⟩

theorem userEdit_linkGoogle (u : User) (googleSub : String) (now : Nat) :
    UserEdit i u (u.linkGoogle googleSub now) := by
  refine ⟨rfl, rfl, rfl, Or.inl rfl, fun h => ?_⟩
  unfold User.isEmailVerified at h
  unfold User.linkGoogle User.isEmailVerified
  by_cases hn : u.emailVerifiedAt = none
  · simp [hn]
  · simpa [hn] using h

theorem commits_loginOrRegisterGoogle (env : Env) (identity : GoogleIdentity) (termsVersion : String)
    (ipAddress userAgent : Option String) : Commits i
      (SocialAuthService.loginOrRegisterGoogle env identity termsVersion ipAddress userAgent) := by
  intro w a w' h
  simp only [SocialAuthService.loginOrRegisterGoogle, Work.bind_ok_iff, Work.lift_ok_iff,
    lift_work_ok_iff] at h
  obtain ⟨_, _, ⟨_, rfl⟩, _, _, ⟨_, rfl⟩, found, _, ⟨hfound, rfl⟩, h⟩ := h
  cases found with
  | some existing =>
    simp only [Work.bind_ok_iff, lift_work_ok_iff, Work.pure_ok_iff] at h
    obtain ⟨_, _, ⟨_, rfl⟩, _, _, hsave, rfl, rfl⟩ := h
    obtain ⟨hrefs, t, ht, rfl⟩ := (save_ok_iff _ _ _).mp hsave
    exact .single (.user (oneOrNone_eq_some hfound).1 (userEdit_linkGoogle existing _ _) hrefs ht)
  | none =>
    simp only [Work.bind_ok_iff, Work.lift_ok_iff, lift_work_ok_iff, Work.pure_ok_iff] at h
    obtain ⟨_, _, ⟨_, rfl⟩, o, _, ⟨ho, rfl⟩, organization, w₁, hos, r, _, ⟨hr, rfl⟩, role, w₂, hrs,
      u, _, ⟨hu, rfl⟩, user, w₃, hus, acceptance, w₄, has, _, rfl⟩ := h
    obtain ⟨_, rfl⟩ := organization_create_ok_iff.mp ho
    obtain ⟨_, rfl⟩ := role_create_ok_iff.mp hr
    obtain ⟨horg, hrole, hnew⟩ := createSocial_ok (i := i) hu
    exact .single (committed_newAccount hos rfl hrs rfl rfl hus horg hrole hnew has)

/-- A unit of work on the world and the tokens. -/
def CommitsWithTokens {α : Type} (i : Input) (m : SystemWork α) : Prop :=
  ∀ s a s', m s = .ok (a, s') → Relation.ReflTransGen (Committed i) s.world s'.world

theorem commitsWithTokens_pure {α : Type} (a : α) : CommitsWithTokens i (pure a : SystemWork α) := by
  intro s b s' h
  obtain ⟨_, rfl⟩ := (Work.pure_ok_iff a b s s').mp h
  exact .refl

theorem commitsWithTokens_throw {α : Type} (e : Failure) :
    CommitsWithTokens i (throw e : SystemWork α) := by
  intro s b s' h
  exact False.elim ((Work.throw_ok_iff e b s s').mp h)

theorem commitsWithTokens_bind {α β : Type} {m : SystemWork α} {f : α → SystemWork β}
    (hm : CommitsWithTokens i m) (hf : ∀ a, CommitsWithTokens i (f a)) :
    CommitsWithTokens i (m >>= f) := by
  intro s b s' h
  obtain ⟨a, t, ha, hb⟩ := (Work.bind_ok_iff m f s s' b).mp h
  exact (hm s a t ha).trans (hf a t b s' hb)

theorem commitsWithTokens_read {α : Type} (r : SystemQuery α) :
    CommitsWithTokens i (liftM r : SystemWork α) := by
  intro s a s' h
  obtain ⟨_, rfl⟩ := (Work.lift_ok_iff r s s' a).mp h
  exact .refl

theorem onSystem_ok_iff {α : Type} {m : UnitOfWork α} {s s' : System} {a : α} :
    (liftM m : SystemWork α) s = .ok (a, s') ↔ m s.world = .ok (a, s'.world) ∧ s'.tokens = s.tokens := by
  change UnitOfWork.onSystem m s = .ok (a, s') ↔ _
  unfold UnitOfWork.onSystem
  obtain ⟨w', tokens'⟩ := s'
  cases m s.world with
  | ok p =>
    obtain ⟨b, w⟩ := p
    simp only [Except.ok.injEq, Prod.mk.injEq, System.mk.injEq]
    constructor
    · rintro ⟨rfl, rfl, rfl⟩
      exact ⟨⟨rfl, rfl⟩, rfl⟩
    · rintro ⟨⟨rfl, rfl⟩, rfl⟩
      exact ⟨rfl, rfl, rfl⟩
  | error e => simp

theorem onSystem_error_iff {α : Type} {m : UnitOfWork α} {s : System} {e : Failure} :
    (liftM m : SystemWork α) s = .error e ↔ m s.world = .error e := by
  change UnitOfWork.onSystem m s = .error e ↔ _
  unfold UnitOfWork.onSystem
  cases m s.world with
  | ok p => simp
  | error e' => simp

theorem unit_apply {α : Type} (m : UnitOfWork α) (s : System) :
    Operation.unit m s =
      match m s.world with
      | .ok (_, w) => (.ok (), { s with world := w })
      | .error e => (.error e, s) := by
  unfold Operation.unit Action.onSystem
  rw [map_eq_pure_bind, Program.bind_apply, Program.commit_apply]
  cases m s.world <;> rfl

theorem unitWithTokens_apply {α : Type} (m : SystemWork α) (s : System) :
    Operation.unitWithTokens m s =
      match m s with
      | .ok (_, s') => (.ok (), s')
      | .error e => (.error e, s) := by
  unfold Operation.unitWithTokens
  rw [map_eq_pure_bind, Program.bind_apply, Program.commit_apply]
  cases m s <;> rfl

theorem commitsWithTokens_lift {α : Type} {m : UnitOfWork α} (h : Commits i m) :
    CommitsWithTokens i (liftM m : SystemWork α) :=
  fun s a s' hm => h s.world a s'.world (onSystem_ok_iff.mp hm).1

theorem commits_read {α : Type} (r : Query α) : Commits i (liftM r : UnitOfWork α) := by
  intro w a w' h
  obtain ⟨_, rfl⟩ := (Work.lift_ok_iff r w w' a).mp h
  exact .refl

theorem commitsWithTokens_deleteForUser (userId : Nat) (purpose : UserTokenPurpose) :
    CommitsWithTokens i (UserTokens.deleteForUser userId purpose) := by
  intro s a s' h
  obtain ⟨_, rfl⟩ := Prod.mk.inj (Except.ok.inj h)
  exact .refl

theorem commitsWithTokens_delete (token : String) : CommitsWithTokens i (UserTokens.delete token) := by
  intro s a s' h
  obtain ⟨_, rfl⟩ := Prod.mk.inj (Except.ok.inj h)
  exact .refl

theorem commitsWithTokens_add (token : UserToken) : CommitsWithTokens i (UserTokens.add token) := by
  intro s a s' h
  unfold UserTokens.add at h
  by_cases hu : s.world.db.has ⟨.user, token.userId⟩ = true
  · rw [if_pos hu] at h
    cases hi : s.tokens.insert token with
    | some p =>
      rw [hi] at h
      obtain ⟨_, rfl⟩ := Prod.mk.inj (Except.ok.inj h)
      exact .refl
    | none =>
      rw [hi] at h
      cases h
  · rw [if_neg hu] at h
    cases h

theorem commitsWithTokens_accountsRegister {organizationName userName email rawPassword : String}
    {ipAddress userAgent : Option String}
    (hp : i.operation.password = some rawPassword) :
    CommitsWithTokens i (Accounts.register i.env organizationName userName email rawPassword
      ipAddress userAgent) := by
  apply commitsWithTokens_bind (commitsWithTokens_lift (commits_register hp))
  rintro ⟨organization, user⟩
  exact commitsWithTokens_bind (commitsWithTokens_add _) fun _ => commitsWithTokens_pure _

theorem commitsWithTokens_issueToken (env : Env) (userId : Nat) (purpose : UserTokenPurpose) :
    CommitsWithTokens i (Accounts.issueToken env userId purpose) :=
  commitsWithTokens_bind (commitsWithTokens_deleteForUser userId purpose) fun _ =>
    commitsWithTokens_add _

theorem commitsWithTokens_resendVerification (env : Env) (email : String) :
    CommitsWithTokens i (Accounts.resendVerification env email) := by
  apply commitsWithTokens_bind (commitsWithTokens_lift (commits_read (UserService.getByEmail email)))
  intro found
  cases found with
  | none => exact commitsWithTokens_pure _
  | some user =>
    intro s a s' h
    by_cases hv : user.isEmailVerified = true
    · simp only [hv] at h
      exact commitsWithTokens_pure none s a s' h
    · simp only [hv] at h
      exact commitsWithTokens_bind (commitsWithTokens_issueToken env user.id .emailVerification)
        (fun _ => commitsWithTokens_pure _) s a s' h

theorem commitsWithTokens_createPasswordResetToken (env : Env) (email : String) :
    CommitsWithTokens i (Accounts.createPasswordResetToken env email) := by
  apply commitsWithTokens_bind (commitsWithTokens_lift (commits_read (UserService.getByEmail email)))
  intro found
  cases found with
  | none => exact commitsWithTokens_pure _
  | some user =>
    intro s a s' h
    by_cases hv : user.isActive = true
    · simp only [hv, not_true_eq_false] at h
      exact commitsWithTokens_bind (commitsWithTokens_issueToken env user.id .passwordReset)
        (fun _ => commitsWithTokens_pure _) s a s' h
    · simp only [hv] at h
      exact commitsWithTokens_pure none s a s' h

theorem commitsWithTokens_redeem (env : Env) (token : String) (purpose : UserTokenPurpose)
    {method : User → User} (h : ∀ u, UserEdit i u (method u)) :
    CommitsWithTokens i (Accounts.redeem env token purpose method) := by
  apply commitsWithTokens_bind (commitsWithTokens_read (UserTokens.getByToken token purpose))
  intro record
  cases record.filter (fun t => t.isValid env.now) with
  | none => exact commitsWithTokens_throw _
  | some record =>
    apply commitsWithTokens_bind (commitsWithTokens_lift (commits_changeHolder record.userId h))
    intro user
    exact commitsWithTokens_bind (commitsWithTokens_delete token) fun _ => commitsWithTokens_pure _

theorem commitsWithTokens_verifyEmail (env : Env) (token : String) :
    CommitsWithTokens i (Accounts.verifyEmail env token) :=
  commitsWithTokens_redeem env token _ fun _ => ⟨rfl, rfl, rfl, Or.inl rfl, fun _ => rfl⟩

theorem commitsWithTokens_resetPassword {token newPassword : String}
    (hp : i.operation.password = some newPassword) :
    CommitsWithTokens i (Accounts.resetPassword i.env token newPassword) :=
  commitsWithTokens_redeem i.env token _ fun _ =>
    ⟨rfl, rfl, rfl, Or.inr ⟨newPassword, hp, rfl⟩, id⟩

end Orchestract
