import Orchestract.Billing.Deliveries
import Orchestract.Domain.CanonicalSlugs
import Orchestract.Library.Growth
import Orchestract.Operations.Histories
import Orchestract.Tenancy.Signup

/-!
# The addresses of organizations

The pages of an organization lie under its slug. An organization gets a canonical one when it is
created, and has it for good.
-/

namespace Orchestract

set_option autoImplicit false

/-- The slug is one segment of a path. -/
def Organization.Canonical (o : Organization) : Prop := o.slug.toList ∈ Text.slugs

def Organization.SameSlug (o o' : Organization) : Prop := o'.slug = o.slug

/-- Organizations keep their slugs, and new ones have canonical ones. -/
def World.Addressed (t : Table Organization) (w : World) : Prop :=
  t.Evolves Organization.SameSlug Organization.Canonical w.db.organizations

variable {t t₁ t' : Table Organization} {w w' : World} {s : System}

theorem addressed_refl (w : World) : w.Addressed w.db.organizations :=
  Table.evolves_refl (R := Organization.SameSlug) (fun _ => rfl) _

theorem addressed_trans (h : t.Evolves Organization.SameSlug Organization.Canonical t₁)
    (h' : t₁.Evolves Organization.SameSlug Organization.Canonical t') :
    t.Evolves Organization.SameSlug Organization.Canonical t' := by
  refine Table.evolves_trans (fun hab hbc => Eq.trans hbc hab) (fun ha hab => ?_) h h'
  unfold Organization.SameSlug at hab
  unfold Organization.Canonical at ha ⊢
  rw [hab]
  exact ha

theorem keptBy_addressed {site : Site} (hne : site ≠ .organizations) : KeptBy site (World.Addressed t) := by
  cases site with
  | organizations => exact absurd rfl hne
  | versionIds | files => exact fun _ _ hw => hw
  | sessions => exact ⟨keepsRows_of_table fun _ _ hw => hw, fun _ _ hw => hw⟩
  | _ => exact keepsRows_of_table fun _ _ hw => hw

theorem addressed_within {α : Type} {sites : List Site} {m : UnitOfWork α} (h : Within sites m)
    (hsites : .organizations ∉ sites) : Work.Keeps (World.Addressed t) m :=
  h _ fun _ hsite => keptBy_addressed fun heq => hsites (heq ▸ hsite)

/-- A row that was there is saved with its slug. -/
theorem addressed_save {o o' : Organization} (hw : w.Addressed t) (ho : o ∈ w.db.organizations.rows)
    (hid : o'.id = o.id) (hslug : o'.slug = o.slug) (h : save o' w = .ok ((), w')) : w'.Addressed t := by
  obtain ⟨_, t', hupdate, rfl⟩ := (save_ok_iff _ _ _).mp h
  exact addressed_trans hw (Table.evolves_update (fun _ => rfl) hupdate ho hid hslug)

theorem addressed_add {o : Organization} {name : String} (h : Organization.create name = .ok o) :
    Work.Keeps (World.Addressed t) (add o) := by
  refine fun w hw organization w' hadd => ⟨?_, trivial⟩
  obtain ⟨_, t', hinsert, rfl⟩ := (add_ok_iff _ _ _ _).mp hadd
  refine addressed_trans hw (Table.evolves_insert (fun _ => rfl) hinsert ?_)
  obtain ⟨hnew, _, _⟩ := Table.insert_eq_some hinsert
  unfold Organization.Canonical
  rw [hnew]
  change o.slug.toList ∈ Text.slugs
  rw [(organization_create_ok h).2]
  exact Text.slugify_mem _

/-- What goes on after a new organization is stored. -/
theorem addressed_newOrganization {α : Type} {name : String} {f : Organization → UnitOfWork α}
    (hf : ∀ organization, Work.Keeps (World.Addressed t) (f organization)) : Work.Keeps (World.Addressed t) (do
      let organization ← Organization.create name
      let organization ← add organization
      f organization : UnitOfWork α) := by
  refine Work.ensures_bind (Q := fun o => Organization.create name = .ok o) (ensures_raising fun _ ho => ho)
    fun o ho => ?_
  exact Work.ensures_bind (addressed_add ho) fun organization _ => hf organization

/-- The owner of a new organization. -/
theorem addressed_owner {β : Type} (organization : Organization) (create : Nat → Except DomainError User)
    (acceptance : User → TermsAcceptance) (result : User → β) : Work.Keeps (World.Addressed t) (do
      let role ← Role.create organization.id "Owner" none none
      let role ← add role
      let user ← create role.id
      let user ← add user
      let _ ← add (acceptance user)
      return result user : UnitOfWork β) := by
  have hwithin : Within [.roles, .users, .acceptances] (do
      let role ← Role.create organization.id "Owner" none none
      let role ← add role
      let user ← create role.id
      let user ← add user
      let _ ← add (acceptance user)
      return result user : UnitOfWork β) := by
    refine within_bind (within_raising _) fun role => within_bind (within_add role (by decide)) fun role => ?_
    refine within_bind (within_raising _) fun user => within_bind (within_add user (by decide)) fun user => ?_
    exact within_bind (within_add (acceptance user) (by decide)) fun _ => within_pure _
  exact addressed_within hwithin (by decide)

theorem addressed_register (env : Env) (organizationName userName email rawPassword : String)
    (ipAddress userAgent : Option String) :
    Work.Keeps (World.Addressed t) (RegistrationService.register env organizationName userName email rawPassword
      ipAddress userAgent) := by
  refine Work.ensures_after_read fun existing => ?_
  refine Work.ensures_bind (ensures_raising fun _ _ => trivial) fun _ _ => ?_
  exact addressed_newOrganization fun organization => addressed_owner organization
    (fun roleId => User.create organization.id userName email (env.hashPassword rawPassword) roleId)
    (fun user => .record user.id organization.id currentTermsVersion ipAddress userAgent env.now)
    (fun user => (organization, user))

theorem addressed_loginOrRegisterGoogle (env : Env) (identity : GoogleIdentity) (termsVersion : String)
    (ipAddress userAgent : Option String) : Work.Keeps (World.Addressed t)
      (SocialAuthService.loginOrRegisterGoogle env identity termsVersion ipAddress userAgent) := by
  refine Work.ensures_bind (ensures_raising fun _ _ => trivial) fun _ _ => ?_
  refine Work.ensures_bind (ensures_raising fun _ _ => trivial) fun _ _ => ?_
  refine Work.ensures_after_read fun existing => ?_
  cases existing with
  | some u =>
    refine Work.ensures_bind (ensures_raising fun _ _ => trivial) fun _ _ => ?_
    refine Work.ensures_bind (Q := fun _ => True) (fun w hw _ w' hsave => ⟨?_, trivial⟩)
      fun _ _ => Work.ensures_pure trivial
    obtain ⟨_, _, _, rfl⟩ := (save_ok_iff _ _ _).mp hsave
    exact hw
  | none =>
    refine Work.ensures_after_read fun name => ?_
    exact addressed_newOrganization fun organization => addressed_owner organization
      (fun roleId => User.createSocial organization.id
        (if identity.name = "" then identity.email else identity.name) identity.email roleId identity.sub env.now)
      (fun user => .record user.id organization.id termsVersion ipAddress userAgent env.now)
      (fun user => user)

/-! ## Histories -/

theorem addressed_perform (s : System) (i : Input) : (perform s i).world.Addressed s.world.db.organizations := by
  have hs := addressed_refl s.world
  by_cases hsite : Site.organizations ∈ i.operation.footprint
  · obtain ⟨env, operation⟩ := i
    cases operation with
    | createOrganization name =>
      refine unit_world (fun a w' hm => ?_) hs
      simp only [OrganizationService.createOrganization, Work.bind_ok_iff, lift_work_ok_iff] at hm
      obtain ⟨o, _, ⟨ho, rfl⟩, hadd⟩ := hm
      exact (addressed_add ho s.world hs a w' hadd).1
    | register organizationName userName email rawPassword ipAddress userAgent =>
      exact unitWithTokens_world (keeps_register (addressed_register env organizationName userName email rawPassword
        ipAddress userAgent)) hs
    | loginOrRegisterGoogle identity termsVersion ipAddress userAgent =>
      exact unit_world (fun a w' hm =>
        (addressed_loginOrRegisterGoogle env identity termsVersion ipAddress userAgent s.world hs a w' hm).1) hs
    | _ => simp [Operation.footprint] at hsite
  · exact perform_keeps (fun site hmem => keptBy_addressed fun heq => hsite (heq ▸ hmem)) hs

theorem addressed_next (s : System) (c : Change) : (s.next c).world.Addressed s.world.db.organizations := by
  have hs := addressed_refl s.world
  cases c with
  | call i => exact addressed_perform s i
  | delivery settings event =>
    refine unit_world (fun a w' hm => ?_) hs
    rw [handleWebhookEvent_apply] at hm
    rcases hfound : event.organization s.world with e | - | o
    · rw [hfound] at hm
      cases hm
    · rw [hfound] at hm
      cases hm
      exact hs
    · rw [hfound] at hm
      exact addressed_save hs (organization_mem hfound) applyTo_id (by cases event <;> rfl) hm
  | setPlan organizationId plan =>
    refine unit_world (fun a w' hm => ?_) hs
    obtain ⟨o, ho, ha, hsave⟩ := (change_ok_iff _ _ _ _ _ _).mp hm
    obtain rfl := Except.ok.inj ha
    exact addressed_save hs (Table.get_eq_some_iff.mp ho).1 (by rfl) (by rfl) hsave
  | _ => exact next_keeps (fun site hmem => keptBy_addressed (by rintro rfl; simp [Change.footprint] at hmem)) hs

theorem addressed_run (s : System) (changes : List Change) :
    (Runs.run System.next s changes).world.Addressed s.world.db.organizations :=
  Runs.run_relates (R := fun s s' : System => s'.world.Addressed s.world.db.organizations)
    (fun s => addressed_refl s.world) addressed_trans addressed_next s changes

theorem canonical_addressed (h : w.Addressed t) (ht : ∀ o ∈ t.rows, o.Canonical) :
    ∀ o ∈ w.db.organizations.rows, o.Canonical := by
  intro o ho
  rcases h.new o ho with ⟨r, hr, hid⟩ | hnew
  · obtain ⟨o', ho', hid', hslug⟩ := h.grows.mem hr
    obtain rfl := Table.eq_of_id ho' ho (hid'.trans hid)
    have hcanonical := ht r hr
    unfold Organization.Canonical at hcanonical ⊢
    rw [hslug]
    exact hcanonical
  · exact hnew

theorem canonical_after (files : Bucket → String → Option Bytes) (changes : List Change) :
    ∀ o ∈ (System.after files changes).world.db.organizations.rows, o.Canonical :=
  canonical_addressed (addressed_run (.initial files) changes) nofun

end Orchestract
