import Orchestract.Infrastructure.Handled
import Orchestract.Isolation.WriteIsolation
import Orchestract.Tenancy.References

/-!
# Accounts and the unique columns

`register`, `create_user` and `login_or_register_google` store users, and the first and the last
an organization as well. When such a call runs into a constraint of the database instead of one
of its own errors, in every state that calls lead to.
-/

namespace Orchestract

set_option autoImplicit false

def EmailTaken (w : World) (email : String) : Prop :=
  ∃ u ∈ w.db.users.rows, u.email = Text.lower (Text.strip email)

def SubTaken (w : World) (googleSub : String) : Prop :=
  ∃ u ∈ w.db.users.rows, u.googleSub = some googleSub

/-- An organization has the slug of this name. -/
def SlugTaken (w : World) (name : String) : Prop :=
  ∃ o ∈ w.db.organizations.rows, o.slug = Text.slugify (Text.strip name)

/-- The three calls that store a user. -/
inductive Signup where
  | register (organizationName userName email rawPassword : String) (ipAddress userAgent : Option String)
  | createUser (organizationId : Nat) (name email rawPassword : String) (roleId : Nat)
  | google (identity : GoogleIdentity) (termsVersion : String) (ipAddress userAgent : Option String)

def Signup.operation : Signup → Operation
  | register organizationName userName email rawPassword ipAddress userAgent =>
    .register organizationName userName email rawPassword ipAddress userAgent
  | createUser organizationId name email rawPassword roleId =>
    .createUser organizationId name email rawPassword roleId
  | google identity termsVersion ipAddress userAgent =>
    .loginOrRegisterGoogle identity termsVersion ipAddress userAgent

/-- There is a name, but no character of it is printed, and no given name. -/
def BlankName (identity : GoogleIdentity) : Prop :=
  Text.strip (identity.givenName.getD "") = "" ∧ identity.name ≠ "" ∧ Text.strip identity.name = ""

/-- The account that is to be linked would get the sub of another account. -/
def LinkCollides (w : World) (identity : GoogleIdentity) : Prop :=
  ∃ u ∈ w.db.users.rows, u.email = Text.lower (Text.strip identity.email) ∧ u.isActive = true ∧
    ∃ v ∈ w.db.users.rows, v.id ≠ u.id ∧ v.googleSub = some identity.sub

/-- The new account has no name to derive a workspace from, or its workspace has the slug of
another organization, or its sub is another account's. -/
def NewCollides (w : World) (identity : GoogleIdentity) : Prop :=
  BlankName identity ∨
    (∃ name, SocialAuthService.deriveOrgName identity w = .ok name ∧ SlugTaken w name) ∨
    (Text.strip (if identity.name = "" then identity.email else identity.name) ≠ "" ∧
      Text.strip identity.email ≠ "" ∧ SubTaken w identity.sub)

/-- What the calls do not check. -/
def Signup.Collides (w : World) : Signup → Prop
  | register organizationName _ email _ _ _ =>
    ¬ EmailTaken w email ∧ Text.strip organizationName ≠ "" ∧ SlugTaken w organizationName
  | createUser organizationId name email _ roleId =>
    ¬ EmailTaken w email ∧ Text.strip name ≠ "" ∧ Text.strip email ≠ "" ∧
      w.db.roles.get roleId = none ∧ ∃ o, w.db.organizations.get organizationId = some o ∧
        o.HasRoom PlanLimits.maxUsers (w.db.users.select fun u => u.organizationId = organizationId).length
  | google identity _ _ _ =>
    identity.email ≠ "" ∧ identity.emailVerified = true ∧
      (LinkCollides w identity ∨ (¬ EmailTaken w identity.email ∧ NewCollides w identity))

/-! ## Lookups and constraints -/

variable {w : World}

theorem lower_eq_empty_iff {s : String} : Text.lower s = "" ↔ s = "" := by
  constructor
  · intro h
    have hlower : Lowercase.lower s.toList = [] := by
      simpa [Text.lower] using congrArg String.toList h
    simpa using Lowercase.lower_eq_nil_iff.mp hlower
  · rintro rfl
    rfl

theorem getByEmail_taken {email : String} {u : User} (hu : u ∈ w.db.users.rows)
    (he : u.email = Text.lower (Text.strip email)) : UserService.getByEmail email w = .ok (some u) := by
  apply oneOrNone_of_singleton
  refine Table.select_unique (k := ⟨"uq_user_email", 0, Text.lower (Text.strip email)⟩) hu
    (by simpa using he) fun r _ hr => ?_
  have hr' : r.email = Text.lower (Text.strip email) := by simpa using hr
  rw [← hr']
  exact List.mem_cons_self

theorem getByEmail_free {email : String} (h : ¬ EmailTaken w email) :
    UserService.getByEmail email w = .ok none := by
  apply oneOrNone_of_nil
  exact List.filter_eq_nil_iff.mpr fun u hu he => h ⟨u, hu, by simpa using he⟩

/-- The unique columns of two users. -/
theorem user_keys_disjoint_iff {r u : User} : (Row.keys r).Disjoint (Row.keys u) ↔
    r.email ≠ u.email ∧ ∀ googleSub, u.googleSub = some googleSub → r.googleSub ≠ some googleSub := by
  simp only [Row.keys, List.disjoint_cons_left, List.disjoint_cons_right]
  cases hr : r.googleSub with
  | none => simp [eq_comm]
  | some a =>
    cases hu : u.googleSub with
    | none => simp [eq_comm]
    | some b => simp [eq_comm]

theorem organization_storable_iff {o : Organization} :
    Storable o w ↔ ∀ r ∈ w.db.organizations.rows, r.slug ≠ o.slug := by
  unfold Storable
  simp [refsExist, Stored.refs, Row.keys, Row.withId, Stored.table, eq_comm]

/-- No role refers to the id that an organization is given. -/
theorem role_organizationId_ne {o organization : Organization} {os : Table Organization} (h : Referenced w)
    (hos : w.db.organizations.insert o = some (organization, os)) :
    ∀ r ∈ w.db.roles.rows, r.organizationId ≠ organization.id := by
  intro r hr
  obtain ⟨a, ha⟩ := h.roles r hr
  exact Table.id_ne_of_insert hos ha

/-- The first role of an organization clashes with no other. -/
theorem storable_firstRole {r : Role} (horg : (w.db.organizations.get r.organizationId).isSome = true)
    (hagent : r.agentId = none) (hfirst : ∀ r' ∈ w.db.roles.rows, r'.organizationId ≠ r.organizationId) :
    Storable r w := by
  refine ⟨?_, fun r' hr' k hk hk' => ?_⟩
  · simp [refsExist, Stored.refs, Database.has, horg, hagent]
  · obtain rfl := List.mem_singleton.mp hk
    exact hfirst r' hr' (congrArg UniqueKey.owner (List.mem_singleton.mp hk'))

theorem storable_acceptance {a : TermsAcceptance} (huser : (w.db.users.get a.userId).isSome = true)
    (horg : (w.db.organizations.get a.organizationId).isSome = true) : Storable a w := by
  refine ⟨?_, fun r _ k hk _ => by cases hk⟩
  simp [refsExist, Stored.refs, Database.has, huser, horg]

/-- The role, the user and the record of the terms, stored after their organization. -/
theorem handled_owner_iff {β : Type} {o organization : Organization} {w₁ : World} (h : Referenced w)
    (ho : add o w = .ok (organization, w₁)) (create : Nat → Except DomainError User)
    (acceptance : User → TermsAcceptance) (result : User → β)
    (hcreate : ∀ roleId u, create roleId = .ok u →
      u.organizationId = organization.id ∧ u.roleId = roleId)
    (haccept : ∀ u, (acceptance u).userId = u.id ∧ (acceptance u).organizationId = organization.id) :
    Handled (do
      let role ← Role.create organization.id "Owner" none none
      let role ← add role
      let user ← create role.id
      let user ← add user
      let _ ← add (acceptance user)
      return result user) w₁ ↔
    ∀ u, create w.db.roles.next = .ok u →
      ∀ r ∈ w.db.users.rows, (Row.keys r).Disjoint (Row.keys u) := by
  obtain ⟨_, os, hos, rfl⟩ := (add_ok_iff o organization w w₁).mp ho
  have hget : os.get organization.id = some organization := Table.get_inserted hos
  let r₀ : Role := ⟨0, organization.id, Text.strip "Owner", Text.slugify (Text.strip "Owner"), none, none⟩
  have hr₀ : Role.create organization.id "Owner" none none = .ok r₀ :=
    role_create_ok_iff.mpr ⟨by decide, rfl⟩
  rw [handled_raising_ok hr₀]
  have horg : (os.get r₀.organizationId).isSome = true := Option.isSome_iff_exists.mpr ⟨_, hget⟩
  have hfirst := role_organizationId_ne h hos
  have hrole : Storable r₀ { w with db := Stored.withTable w.db os } := storable_firstRole horg rfl hfirst
  obtain ⟨role, w₂, hadd⟩ := storable_iff.mp hrole
  rw [handled_add_ok hadd, handled_raising]
  obtain ⟨_, rs, hrs, rfl⟩ := (add_ok_iff r₀ role _ w₂).mp hadd
  obtain ⟨hrolenew, _, _⟩ := Table.insert_eq_some hrs
  have hroleid : role.id = w.db.roles.next := by rw [hrolenew]; rfl
  have hgetrole : rs.get role.id = some role := Table.get_inserted hrs
  rw [← hroleid]
  refine forall_congr' fun u => imp_congr_right fun hu => ?_
  obtain ⟨huorg, hurole⟩ := hcreate role.id u hu
  rw [handled_add]
  constructor
  · rintro ⟨user, w₃, hus, _⟩
    exact (storable_iff.mpr ⟨user, w₃, hus⟩).2
  · intro hfree
    have hstorable : Storable u { w with db := { w.db with organizations := os, roles := rs } } := by
      refine ⟨refsExist_user_iff.mpr ⟨?_, ?_⟩, hfree⟩
      · change (os.get u.organizationId).isSome = true
        rw [huorg, hget]
        rfl
      · change (rs.get u.roleId).isSome = true
        rw [hurole, hgetrole]
        rfl
    obtain ⟨user, w₃, hus⟩ := storable_iff.mp hstorable
    refine ⟨user, w₃, hus, ?_⟩
    obtain ⟨_, us, hus', rfl⟩ := (add_ok_iff u user _ w₃).mp hus
    obtain ⟨hauser, haorg⟩ := haccept user
    have haccepted : Storable (acceptance user)
        { w with db := { w.db with organizations := os, roles := rs, users := us } } := by
      apply storable_acceptance
      · rw [hauser]
        exact Option.isSome_iff_exists.mpr ⟨user, Table.get_inserted hus'⟩
      · rw [haorg]
        exact Option.isSome_iff_exists.mpr ⟨organization, hget⟩
    obtain ⟨accepted, w₄, hacc⟩ := storable_iff.mp haccepted
    exact (handled_add_ok hacc).mpr (handled_pure _)

theorem organization_create_ok {name : String} {o : Organization} (h : Organization.create name = .ok o) :
    Text.strip name ≠ "" ∧ o.slug = Text.slugify (Text.strip name) := by
  obtain ⟨hname, ho⟩ := organization_create_ok_iff.mp h
  exact ⟨hname, by rw [← ho]⟩

theorem newOrganization_stored {name : String} (hname : Text.strip name ≠ "") (hfree : ¬ SlugTaken w name) :
    ∃ o organization w₁, Organization.create name = .ok o ∧ add o w = .ok (organization, w₁) := by
  obtain ⟨o, ho⟩ : ∃ o, Organization.create name = .ok o :=
    ⟨_, organization_create_ok_iff.mpr ⟨hname, rfl⟩⟩
  have hstorable : Storable o w := organization_storable_iff.mpr fun r hr heq =>
    hfree ⟨r, hr, heq.trans (organization_create_ok ho).2⟩
  obtain ⟨organization, w₁, hadd⟩ := storable_iff.mp hstorable
  exact ⟨o, organization, w₁, ho, hadd⟩

/-- An organization is stored unless its name is blank, which raises, or its slug is taken. -/
theorem handled_newOrganization_iff {β : Type} {name : String} {f : Organization → UnitOfWork β} :
    Handled (do
      let organization ← Organization.create name
      let organization ← add organization
      f organization) w ↔
    (Text.strip name ≠ "" → ¬ SlugTaken w name ∧ ∀ o organization w₁,
      add o w = .ok (organization, w₁) → Organization.create name = .ok o → Handled (f organization) w₁) := by
  rw [handled_raising]
  constructor
  · intro h hname
    obtain ⟨o, ho⟩ : ∃ o, Organization.create name = .ok o :=
      ⟨_, organization_create_ok_iff.mpr ⟨hname, rfl⟩⟩
    obtain ⟨new, w', hadd, hf⟩ := handled_add.mp (h o ho)
    refine ⟨fun ⟨r, hr, hslug⟩ => ?_, fun o' organization w₁ hadd' ho' => ?_⟩
    · have hne := organization_storable_iff.mp (storable_iff.mpr ⟨new, w', hadd⟩) r hr
      exact hne (hslug.trans (organization_create_ok ho).2.symm)
    · obtain rfl := Except.ok.inj (ho.symm.trans ho')
      obtain ⟨rfl, rfl⟩ := Prod.mk.inj (Except.ok.inj (hadd.symm.trans hadd'))
      exact hf
  · intro h o ho
    obtain ⟨hname, _⟩ := organization_create_ok ho
    obtain ⟨hfree, hf⟩ := h hname
    obtain ⟨o', organization, w₁, ho', hadd⟩ := newOrganization_stored hname hfree
    obtain rfl := Except.ok.inj (ho.symm.trans ho')
    exact (handled_add_ok hadd).mpr (hf o organization w₁ hadd ho)

/-! ## The calls -/

theorem user_create_ok_iff {organizationId : Nat} {name email passwordHash : String} {roleId : Nat}
    {u : User} : User.create organizationId name email passwordHash roleId = .ok u ↔
      Text.strip name ≠ "" ∧ Text.strip email ≠ "" ∧
        ⟨0, organizationId, Text.strip name, Text.lower (Text.strip email), some passwordHash, none,
          roleId, true, none, none⟩ = u := by
  simp [User.create, lower_eq_empty_iff]

theorem createSocial_ok_iff {organizationId roleId now : Nat} {name email googleSub : String} {u : User} :
    User.createSocial organizationId name email roleId googleSub now = .ok u ↔
      Text.strip name ≠ "" ∧ Text.strip email ≠ "" ∧
        ⟨0, organizationId, Text.strip name, Text.lower (Text.strip email), none, some googleSub,
          roleId, true, some now, none⟩ = u := by
  simp [User.createSocial, lower_eq_empty_iff]

/-- The check of the address, passed. -/
theorem emailFree_ok {email : String} :
    raiseIf ((none : Option User).isSome = true) (DomainError.duplicateEmail email) = .ok () :=
  (raiseIf_ok_iff _ _ _).mpr (by simp)

/-- The check of the address, failed. -/
theorem emailTaken_handled {β : Type} {email : String} {u : User} {f : Unit → UnitOfWork β} :
    Handled (liftM (raiseIf ((some u).isSome = true) (DomainError.duplicateEmail email)) >>= f) w :=
  handled_raising.mpr fun x hx => absurd rfl ((raiseIf_ok_iff _ _ x).mp hx)

theorem handled_register_iff (h : Referenced w) (env : Env)
    (organizationName userName email rawPassword : String) (ipAddress userAgent : Option String) :
    Handled (RegistrationService.register env organizationName userName email rawPassword ipAddress userAgent) w ↔
      ¬ (Signup.register organizationName userName email rawPassword ipAddress userAgent).Collides w := by
  unfold RegistrationService.register
  by_cases htaken : EmailTaken w email
  · obtain ⟨u, hu, he⟩ := htaken
    rw [handled_read (getByEmail_taken hu he)]
    exact ⟨fun _ hc => hc.1 ⟨u, hu, he⟩, fun _ => emailTaken_handled⟩
  · rw [handled_read (getByEmail_free htaken), handled_raising_ok emailFree_ok,
      handled_newOrganization_iff]
    constructor
    · rintro hname ⟨_, hblank, hslug⟩
      exact (hname hblank).1 hslug
    · intro hc hblank
      refine ⟨fun hslug => hc ⟨htaken, hblank, hslug⟩, fun o organization w₁ hadd _ => ?_⟩
      refine (handled_owner_iff h hadd
        (fun roleId => User.create organization.id userName email (env.hashPassword rawPassword) roleId)
        (fun user => .record user.id organization.id currentTermsVersion ipAddress userAgent env.now)
        (fun user => (organization, user)) (fun roleId u hu => ?_) fun u => ⟨rfl, rfl⟩).mpr
        fun u hu r hr => ?_
      · obtain ⟨_, _, rfl⟩ := user_create_ok_iff.mp hu
        exact ⟨rfl, rfl⟩
      · obtain ⟨_, _, rfl⟩ := user_create_ok_iff.mp hu
        exact user_keys_disjoint_iff.mpr ⟨fun he => htaken ⟨r, hr, he⟩, fun _ hn => by cases hn⟩

theorem require_isRaised {α : Type} [Row α] [Stored α] {what : String} {id : Nat} {e : Failure}
    (h : (require what id : Query α) w = .error e) : e.IsRaised := by
  rw [require_eq] at h
  cases hget : ((Stored.table w.db).get id : Option α) with
  | some a =>
    rw [hget] at h
    cases h
  | none =>
    rw [hget] at h
    exact ⟨_, (Except.error.inj h).symm⟩

theorem requireRoom_isRaised {α : Type} {o : Organization} {limit : PlanLimits → Option Nat}
    {plural : String} {existing : Query (List α)} {rows : List α} {e : Failure}
    (hrows : existing w = .ok rows) (h : requireRoom o limit plural existing w = .error e) :
    e.IsRaised := by
  unfold requireRoom at h
  cases hm : limit o.plan.limits with
  | none =>
    simp only [hm] at h
    cases h
  | some m =>
    simp only [hm, Read.bind_ok hrows] at h
    change raising _ w = .error e at h
    unfold raising at h
    split at h
    · cases h
    · exact ⟨_, (Except.error.inj h).symm⟩

theorem requireRoom_ok_iff {α : Type} {o : Organization} {limit : PlanLimits → Option Nat}
    {plural : String} {existing : Query (List α)} {rows : List α} {u : Unit}
    (hrows : existing w = .ok rows) :
    requireRoom o limit plural existing w = .ok u ↔ o.HasRoom limit rows.length := by
  constructor
  · intro h
    refine hasRoom_of_requireRoom h fun rows' hrows' => ?_
    rw [Except.ok.inj (hrows'.symm.trans hrows)]
  · intro h
    unfold requireRoom
    cases hm : limit o.plan.limits with
    | none => rfl
    | some m =>
      have hlt := h m hm
      simp only [Read.bind_ok hrows, lift_query_ok_iff, raiseIf_ok_iff]
      omega

theorem handled_createUser_iff (env : Env) (organizationId : Nat) (name email rawPassword : String)
    (roleId : Nat) :
    Handled (UserService.createUser env organizationId name email rawPassword roleId) w ↔
      ¬ (Signup.createUser organizationId name email rawPassword roleId).Collides w := by
  let rows := orderByText User.name (w.db.users.select fun u => u.organizationId = organizationId)
  have hrows : UserService.listUsers organizationId w = .ok rows := rfl
  have hlength : rows.length = (w.db.users.select fun u => u.organizationId = organizationId).length :=
    length_orderByText
  unfold UserService.createUser OrganizationService.get
  rw [handled_after_read fun _ => require_isRaised]
  simp only [require_ok_iff, handled_after_read fun _ => requireRoom_isRaised hrows,
    requireRoom_ok_iff hrows]
  by_cases htaken : EmailTaken w email
  · obtain ⟨u, hu, he⟩ := htaken
    simp only [handled_read (getByEmail_taken hu he), emailTaken_handled]
    exact ⟨fun _ hc => hc.1 ⟨u, hu, he⟩, fun _ _ _ _ _ => trivial⟩
  · simp only [handled_read (getByEmail_free htaken), handled_raising_ok emailFree_ok, handled_raising,
      handled_add_last]
    constructor
    · rintro h ⟨_, hname, hemail, hrole, o, ho, hroom⟩
      have hstorable := h o ho () (hlength ▸ hroom) _ (user_create_ok_iff.mpr ⟨hname, hemail, rfl⟩)
      have hsome : (w.db.roles.get roleId).isSome = true := (refsExist_user_iff.mp hstorable.1).2
      rw [hrole] at hsome
      cases hsome
    · intro hc o ho _ hroom u hu
      obtain ⟨hname, hemail, rfl⟩ := user_create_ok_iff.mp hu
      have horg : (w.db.organizations.get organizationId).isSome = true := Option.isSome_of_eq_some ho
      refine ⟨refsExist_user_iff.mpr ⟨horg, ?_⟩, fun r hr => ?_⟩
      · by_contra hn
        exact hc ⟨htaken, hname, hemail, Option.not_isSome_iff_eq_none.mp hn, o, ho, hlength ▸ hroom⟩
      · exact user_keys_disjoint_iff.mpr ⟨fun he => htaken ⟨r, hr, he⟩, fun _ hn => by cases hn⟩

/-! ## Google -/

theorem firstWord_blank {name : String} (h : Text.strip name = "") :
    SocialAuthService.firstWord name w = .error (.crashed .indexError) := by
  unfold SocialAuthService.firstWord
  rw [h]
  rfl

/-- A name that is not blank has a first word. -/
theorem firstWord_ok {name : String} (h : Text.strip name ≠ "") :
    ∃ word, SocialAuthService.firstWord name w = .ok word := by
  have hne : Text.stripBy Text.isSpace name.toList ≠ [] := by
    intro hnil
    exact h (by rw [Text.strip, hnil])
  obtain ⟨c, rest, hc, hspace⟩ := Text.stripBy_head hne
  have hlist : (Text.strip name).toList = c :: rest := by
    rw [Text.strip, String.toList_ofList, hc]
  refine ⟨String.ofList (c :: rest.takeWhile fun c => !Text.isSpace c), ?_⟩
  unfold SocialAuthService.firstWord
  rw [hlist, List.takeWhile_cons, if_pos (by simp [hspace])]

theorem deriveOrgName_blank {identity : GoogleIdentity} (h : BlankName identity) :
    SocialAuthService.deriveOrgName identity w = .error (.crashed .indexError) := by
  obtain ⟨hgiven, hname, hblank⟩ := h
  simp only [SocialAuthService.deriveOrgName, if_pos (And.intro hgiven hname)]
  exact (Read.bind_error_iff _ _ _ _).mpr (Or.inl (firstWord_blank hblank))

theorem workspace_not_blank (base : String) : Text.strip s!"{base}'s workspace" ≠ "" := by
  intro h
  have hw : 'w' ∈ (s!"{base}'s workspace").toList := by
    rw [String.toList_append]
    exact List.mem_append_right _ (by decide)
  exact absurd (Text.strip_eq_empty_iff.mp h 'w' hw) (by decide)

/-- The name of a workspace is never blank. -/
theorem deriveOrgName_ok {identity : GoogleIdentity} (h : ¬ BlankName identity) :
    ∃ name, SocialAuthService.deriveOrgName identity w = .ok name ∧ Text.strip name ≠ "" := by
  have hbase : ∃ base, (if Text.strip (identity.givenName.getD "") = "" ∧ identity.name ≠ "" then
      SocialAuthService.firstWord identity.name
      else pure (Text.strip (identity.givenName.getD "")) : Query String) w = .ok base := by
    by_cases hc : Text.strip (identity.givenName.getD "") = "" ∧ identity.name ≠ ""
    · rw [if_pos hc]
      exact firstWord_ok fun hblank => h ⟨hc.1, hc.2, hblank⟩
    · rw [if_neg hc]
      exact ⟨_, rfl⟩
  obtain ⟨base, hbase⟩ := hbase
  unfold SocialAuthService.deriveOrgName
  simp only [Read.bind_ok hbase]
  exact ⟨_, rfl, workspace_not_blank _⟩

theorem apart_linkGoogle_iff {u : User} (hu : u ∈ w.db.users.rows) {googleSub : String} {now : Nat} :
    (∀ v ∈ w.db.users.rows, Apart (u.linkGoogle googleSub now) v) ↔
      ∀ v ∈ w.db.users.rows, v.id ≠ u.id → v.googleSub ≠ some googleSub := by
  refine forall_congr' fun v => imp_congr_right fun hv => imp_congr_right fun hid => ?_
  have hemail : v.email ≠ u.email := (user_keys_disjoint_iff.mp (w.db.users.unique u hu v hv hid)).1
  rw [user_keys_disjoint_iff]
  constructor
  · exact fun hkeys => hkeys.2 googleSub rfl
  · exact fun hsub => ⟨hemail, fun s hs => Option.some.inj hs ▸ hsub⟩

/-- A link is refused for the sub of another account. -/
theorem handled_link_iff (h : Referenced w) {u : User} (hu : u ∈ w.db.users.rows) (googleSub : String)
    (now : Nat) :
    Handled (do
      raiseIf (¬ u.isActive = true)
        (DomainError.socialLogin "This account has been deactivated. Contact your organization's admin.")
      save (u.linkGoogle googleSub now)
      pure (u.linkGoogle googleSub now)) w ↔
    (u.isActive = true → ∀ v ∈ w.db.users.rows, v.id ≠ u.id → v.googleSub ≠ some googleSub) := by
  have hrefs : refsExist (u.linkGoogle googleSub now) w.db = true := h.users u hu
  simp only [handled_raising, raiseIf_ok_iff, not_not, forall_const]
  refine imp_congr_right fun _ => ?_
  exact (handled_save (f := fun _ => pure (u.linkGoogle googleSub now)) hrefs
    fun _ => handled_pure _).trans (apart_linkGoogle_iff hu)

/-- The account of a new address, stored after its organization. -/
theorem handled_socialOwner_iff (h : Referenced w) (env : Env) (identity : GoogleIdentity)
    (termsVersion : String) (ipAddress userAgent : Option String) {o organization : Organization}
    {w₁ : World} (hadd : add o w = .ok (organization, w₁)) (hfree : ¬ EmailTaken w identity.email) :
    Handled (do
      let role ← Role.create organization.id "Owner" none none
      let role ← add role
      let user ← User.createSocial organization.id
        (if identity.name = "" then identity.email else identity.name) identity.email role.id
        identity.sub env.now
      let user ← add user
      let _ ← add (TermsAcceptance.record user.id organization.id termsVersion ipAddress userAgent env.now)
      return user) w₁ ↔
    (Text.strip (if identity.name = "" then identity.email else identity.name) ≠ "" →
      Text.strip identity.email ≠ "" → ¬ SubTaken w identity.sub) := by
  have hcreate : ∀ roleId u, User.createSocial organization.id
      (if identity.name = "" then identity.email else identity.name) identity.email roleId
      identity.sub env.now = .ok u → u.organizationId = organization.id ∧ u.roleId = roleId := by
    intro roleId u hu
    obtain ⟨_, _, rfl⟩ := createSocial_ok_iff.mp hu
    exact ⟨rfl, rfl⟩
  rw [handled_owner_iff h hadd _ _ (fun user => user) hcreate fun u => ⟨rfl, rfl⟩]
  simp only [createSocial_ok_iff, user_keys_disjoint_iff]
  constructor
  · rintro hkeys hname hemail ⟨v, hv, hsub⟩
    exact (hkeys _ ⟨hname, hemail, rfl⟩ v hv).2 identity.sub rfl hsub
  · rintro hsub u ⟨hname, hemail, rfl⟩ v hv
    refine ⟨fun he => hfree ⟨v, hv, he⟩, fun s hs hs' => hsub hname hemail ⟨v, hv, ?_⟩⟩
    rw [hs', ← hs]

/-- An address without an account. -/
theorem handled_newGoogle_iff (h : Referenced w) (env : Env) (identity : GoogleIdentity)
    (termsVersion : String) (ipAddress userAgent : Option String)
    (hfree : ¬ EmailTaken w identity.email) :
    Handled (do
      let name ← SocialAuthService.deriveOrgName identity
      let organization ← Organization.create name
      let organization ← add organization
      let role ← Role.create organization.id "Owner" none none
      let role ← add role
      let user ← User.createSocial organization.id
        (if identity.name = "" then identity.email else identity.name) identity.email role.id
        identity.sub env.now
      let user ← add user
      let _ ← add (TermsAcceptance.record user.id organization.id termsVersion ipAddress userAgent env.now)
      return user) w ↔ ¬ NewCollides w identity := by
  by_cases hblank : BlankName identity
  · refine ⟨fun hh => absurd hh (handled_read_crash (deriveOrgName_blank hblank)), fun hc => ?_⟩
    exact absurd (Or.inl hblank) hc
  · obtain ⟨name, hname, hnonblank⟩ := deriveOrgName_ok (w := w) hblank
    rw [handled_read hname, handled_newOrganization_iff]
    constructor
    · rintro hh (hb | ⟨name', hname', hslug⟩ | ⟨hdisplay, hemail, hsub⟩)
      · exact hblank hb
      · obtain rfl := Except.ok.inj (hname.symm.trans hname')
        exact (hh hnonblank).1 hslug
      · obtain ⟨hslug, htail⟩ := hh hnonblank
        obtain ⟨o, organization, w₁, ho, hadd⟩ := newOrganization_stored hnonblank hslug
        exact (handled_socialOwner_iff h env identity termsVersion ipAddress userAgent hadd hfree).mp
          (htail o organization w₁ hadd ho) hdisplay hemail hsub
    · intro hc _
      refine ⟨fun hslug => hc (Or.inr (Or.inl ⟨name, hname, hslug⟩)), fun o organization w₁ hadd _ => ?_⟩
      refine (handled_socialOwner_iff h env identity termsVersion ipAddress userAgent hadd hfree).mpr ?_
      exact fun hdisplay hemail hsub => hc (Or.inr (Or.inr ⟨hdisplay, hemail, hsub⟩))

theorem handled_loginOrRegisterGoogle_iff (h : Referenced w) (env : Env) (identity : GoogleIdentity)
    (termsVersion : String) (ipAddress userAgent : Option String) :
    Handled (SocialAuthService.loginOrRegisterGoogle env identity termsVersion ipAddress userAgent) w ↔
      ¬ (Signup.google identity termsVersion ipAddress userAgent).Collides w := by
  unfold SocialAuthService.loginOrRegisterGoogle
  simp only [handled_raising, raiseIf_ok_iff, not_not, forall_const]
  by_cases htaken : EmailTaken w identity.email
  · obtain ⟨u, hu, he⟩ := htaken
    simp only [handled_read (getByEmail_taken hu he)]
    rw [handled_link_iff h hu]
    constructor
    · rintro hh ⟨hemail, hverified, ⟨u', hu', he', hactive, v, hv, hid, hsub⟩ | ⟨hfree, _⟩⟩
      · have hsame := (getByEmail_taken hu he).symm.trans (getByEmail_taken hu' he')
        obtain rfl := Option.some.inj (Except.ok.inj hsame)
        exact hh hemail hverified hactive v hv hid hsub
      · exact hfree ⟨u, hu, he⟩
    · intro hc hemail hverified hactive v hv hid hsub
      exact hc ⟨hemail, hverified, Or.inl ⟨u, hu, he, hactive, v, hv, hid, hsub⟩⟩
  · simp only [handled_read (getByEmail_free htaken)]
    rw [handled_newGoogle_iff h env identity termsVersion ipAddress userAgent htaken]
    constructor
    · rintro hh ⟨hemail, hverified, ⟨u, hu, he, _⟩ | ⟨_, hnew⟩⟩
      · exact htaken ⟨u, hu, he⟩
      · exact hh hemail hverified hnew
    · exact fun hc hemail hverified hnew => hc ⟨hemail, hverified, Or.inr ⟨htaken, hnew⟩⟩

/-! ## On the system -/

/-- The call returns, or raises one of the application's own errors and has changed nothing. -/
def Answered (s : System) (i : Input) : Prop :=
  (i.operation.run i.env s).1 = .ok () ∨ ∃ e, i.operation.run i.env s = (.error (.raised e), s)

theorem answered_error_iff {e : Failure} {s : System} :
    (((Except.error e : Except Failure Unit), s).1 = .ok () ∨
      ∃ d, ((Except.error e : Except Failure Unit), s) = (.error (.raised d), s)) ↔ ∃ d, e = .raised d := by
  constructor
  · rintro (h | ⟨d, hd⟩)
    · cases h
    · exact ⟨d, Except.error.inj (congrArg Prod.fst hd)⟩
  · rintro ⟨d, rfl⟩
    exact Or.inr ⟨d, rfl⟩

theorem unit_answered_iff {α : Type} {m : UnitOfWork α} {s : System} :
    ((Operation.unit m s).1 = .ok () ∨ ∃ e, Operation.unit m s = (.error (.raised e), s)) ↔
      Handled m s.world := by
  rw [unit_apply, handled_iff]
  cases m s.world with
  | ok p => simp
  | error e => exact answered_error_iff.trans (by simp)

theorem unitWithTokens_answered_iff {α : Type} {m : SystemWork α} {s : System} :
    ((Operation.unitWithTokens m s).1 = .ok () ∨
      ∃ e, Operation.unitWithTokens m s = (.error (.raised e), s)) ↔
      Work.RaisesOnly Failure.IsRaised m s := by
  rw [unitWithTokens_apply]
  unfold Work.RaisesOnly
  cases m s with
  | ok p => simp
  | error e => exact answered_error_iff.trans (by simp [Failure.IsRaised])

theorem register_user {env : Env} {organizationName userName email rawPassword : String}
    {ipAddress userAgent : Option String}
    {organization : Organization} {user : User} {w' : World}
    (h : RegistrationService.register env organizationName userName email rawPassword ipAddress userAgent w =
      .ok ((organization, user), w')) : w'.db.has ⟨.user, user.id⟩ = true := by
  simp only [RegistrationService.register, Work.bind_ok_iff, Work.lift_ok_iff, lift_work_ok_iff,
    Work.pure_ok_iff, Prod.mk.injEq] at h
  obtain ⟨_, _, ⟨_, rfl⟩, _, _, ⟨_, rfl⟩, _, _, ⟨_, rfl⟩, _, _, _, _, _, ⟨_, rfl⟩, _, _, _, _, _, ⟨_, rfl⟩,
    new, w₃, hus, _, w₄, has, ⟨rfl, rfl⟩, rfl⟩ := h
  obtain ⟨_, us, hus', rfl⟩ := (add_ok_iff _ new _ w₃).mp hus
  obtain ⟨_, _, _, rfl⟩ := (add_ok_iff _ _ _ w₄).mp has
  have hget : us.get new.id = some new := Table.get_inserted hus'
  change (us.get new.id).isSome = true
  rw [hget]
  rfl

/-- A token of a user that is there is stored, when its text is new. -/
theorem addToken_ok {s : System} (token : UserToken) (hu : s.world.db.has ⟨.user, token.userId⟩ = true)
    (hfresh : ∀ t ∈ s.tokens.rows, t.token ≠ token.token) : ∃ p, UserTokens.add token s = .ok p := by
  have hinsert : ∃ p, s.tokens.insert token = some p := by
    refine Table.insert_isSome_iff.mpr fun t ht k hk hk' => ?_
    obtain rfl := List.mem_singleton.mp hk
    exact hfresh t ht (congrArg UniqueKey.value (List.mem_singleton.mp hk'))
  obtain ⟨p, hp⟩ := hinsert
  unfold UserTokens.add
  rw [if_pos hu, hp]
  exact ⟨_, rfl⟩

theorem raisesOnly_register_iff {env : Env} {organizationName userName email rawPassword : String}
    {ipAddress userAgent : Option String}
    {s : System} (hfresh : ∀ t ∈ s.tokens.rows, t.token ≠ env.randomToken) :
    Work.RaisesOnly Failure.IsRaised (Accounts.register env organizationName userName email rawPassword
      ipAddress userAgent) s ↔
      Handled (RegistrationService.register env organizationName userName email rawPassword
        ipAddress userAgent) s.world := by
  unfold Accounts.register
  rw [Work.raisesOnly_bind_iff]
  constructor
  · exact fun hregister e he => hregister.1 e (onSystem_error_iff.mpr he)
  · intro hh
    refine ⟨fun e he => hh e (onSystem_error_iff.mp he), ?_⟩
    rintro ⟨organization, user⟩ s' hs'
    obtain ⟨hw, htokens⟩ := onSystem_ok_iff.mp hs'
    obtain ⟨p, hp⟩ := addToken_ok (.issue user.id .emailVerification env.randomToken env.now)
      (register_user hw) fun t ht => hfresh t (htokens ▸ ht)
    exact (Work.raisesOnly_bind_ok hp).mpr (Work.raisesOnly_pure _ _)

/-- In every state that calls lead to: a call that stores a user ends well, or with one of the
application's own errors, exactly when it does not collide. A new link's token is new. -/
theorem signup_answered_iff (files : Bucket → String → Option Bytes) (inputs : List Input) (env : Env)
    (call : Signup)
    (fresh : ∀ t ∈ (Runs.run perform ⟨⟨.empty, files⟩, .empty⟩ inputs).tokens.rows,
      t.token ≠ env.randomToken) :
    let s := Runs.run perform ⟨⟨.empty, files⟩, .empty⟩ inputs
    Answered s ⟨env, call.operation⟩ ↔ ¬ call.Collides s.world := by
  intro s
  have h : Referenced s.world := referenced_run files inputs
  cases call with
  | register organizationName userName email rawPassword ipAddress userAgent =>
    exact (unitWithTokens_answered_iff.trans (raisesOnly_register_iff fresh)).trans
      (handled_register_iff h env organizationName userName email rawPassword ipAddress userAgent)
  | createUser organizationId name email rawPassword roleId =>
    exact unit_answered_iff.trans
      (handled_createUser_iff env organizationId name email rawPassword roleId)
  | google identity termsVersion ipAddress userAgent =>
    exact unit_answered_iff.trans
      (handled_loginOrRegisterGoogle_iff h env identity termsVersion ipAddress userAgent)

theorem signup_answered_first :
    Answered ⟨⟨.empty, fun _ _ => none⟩, .empty⟩
      ⟨.offline 1 "token", .register "Acme" "Alice" "alice@acme.test" "secret" none none⟩ := by
  refine (signup_answered_iff (fun _ _ => none) [] (.offline 1 "token")
    (.register "Acme" "Alice" "alice@acme.test" "secret" none none) fun t ht => by cases ht).mpr ?_
  rintro ⟨_, _, o, ho, _⟩
  cases ho

/-- Alice Smith has signed up with Google. -/
def aliceSignedUp : System :=
  Runs.run perform ⟨⟨.empty, fun _ _ => none⟩, .empty⟩ [⟨.offline 1 "",
    .loginOrRegisterGoogle ⟨"g-1", "alice@smith.test", true, "Alice Smith", some "Alice"⟩ "v1" none none⟩]

theorem not_answered_of_crash {s : System} {i : Input} {c : Crash}
    (h : (i.operation.run i.env s).1 = .error (.crashed c)) : ¬ Answered s i := by
  rintro (hok | ⟨e, he⟩)
  · rw [h] at hok
    cases hok
  · rw [he] at h
    cases h

/-- Another Alice cannot sign up with Google; nor can the first one sign in once the address of her
Google account has changed. -/
theorem not_signup_answered_google :
    ¬ Answered aliceSignedUp ⟨.offline 2 "", .loginOrRegisterGoogle
      ⟨"g-2", "alice@jones.test", true, "Alice Jones", some "Alice"⟩ "v1" none none⟩ ∧
    ¬ Answered aliceSignedUp ⟨.offline 2 "", .loginOrRegisterGoogle
      ⟨"g-1", "smith@smith.test", true, "A. Smith", some "A."⟩ "v1" none none⟩ := by
  constructor
  · apply not_answered_of_crash (c := .integrityError)
    decide +kernel
  · apply not_answered_of_crash (c := .integrityError)
    decide +kernel

end Orchestract
