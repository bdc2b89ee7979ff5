import Orchestract.Accounts.Redemption
import Orchestract.Isolation.ReadIsolation
import Orchestract.Library.Since
import Orchestract.Operations.Histories

/-!
# Who is let in

The sessions and the acceptances of the terms over any history, and whom the login gate lets in at
the end of it: what it looks up in the database is what the history says.
-/

namespace Orchestract

set_option autoImplicit false

/-- The session that a change opens. -/
def Change.opens (s : System) : Change → Option UserSession
  | .call ⟨env, .createSession userId⟩ => (UserService.createSession env userId s.world).toOption.map Prod.fst
  | _ => none

/-- The acceptance of the terms that a change records. -/
def Change.accepts (s : System) : Change → Option TermsAcceptance
  | .call ⟨env, .recordAcceptance userId organizationId ipAddress userAgent⟩ =>
    (ComplianceService.recordAcceptance env userId organizationId ipAddress userAgent s.world).toOption.map
      Prod.fst
  | .call ⟨env, .register organizationName userName email rawPassword ipAddress userAgent⟩ =>
    (Accounts.register env organizationName userName email rawPassword ipAddress userAgent s).toOption.map fun p =>
      { TermsAcceptance.record p.1.2.1.id p.1.1.id currentTermsVersion ipAddress userAgent env.now with
        id := s.world.db.acceptances.next }
  | .call ⟨env, .loginOrRegisterGoogle identity termsVersion ipAddress userAgent⟩ =>
    match UserService.getByEmail identity.email s.world with
    | .ok none =>
      (SocialAuthService.loginOrRegisterGoogle env identity termsVersion ipAddress userAgent
        s.world).toOption.map fun p =>
          { TermsAcceptance.record p.1.id p.1.organizationId termsVersion ipAddress userAgent env.now with
            id := s.world.db.acceptances.next }
    | _ => none
  | _ => none

/-- One of the changes has opened the session, and none after it has ended it. -/
def Opened (files : Bucket → String → Option Bytes) (changes : List Change) (session : UserSession) : Prop :=
  ∃ before c after, changes = before ++ c :: after ∧ c.opens (System.after files before) = some session ∧
    ∀ c' ∈ after, c' ≠ .deleteSession session.token

/-- One of the changes has recorded that the user accepts the current terms. -/
def Consented (files : Bucket → String → Option Bytes) (changes : List Change) (userId : Nat) : Prop :=
  ∃ before c after a, changes = before ++ c :: after ∧ c.accepts (System.after files before) = some a ∧
    a.userId = userId ∧ a.version = currentTermsVersion

/-- Who may be let in after these changes: an active member of the organization, with the token of an
open session of theirs, who has accepted the terms. -/
structure Entitled (files : Bucket → String → Option Bytes) (changes : List Change) (env : Env) (r : Request)
    (v : Viewer) : Prop extends Admitted env r (System.after files changes).world v where
  session : ∃ session, r.sessionToken = some session.token ∧ session.token ≠ "" ∧ session.userId = v.user.id ∧
    env.now < session.expiresAt ∧ Opened files changes session
  consent : Consented files changes v.user.id

variable {files : Bucket → String → Option Bytes} {changes : List Change} {s : System} {c : Change} {w : World}
  {env : Env}

/-! ## Sessions -/

theorem opens_rows {userId : Nat} : (perform s ⟨env, .createSession userId⟩).world.db.sessions.rows =
    s.world.db.sessions.rows ++ ((Change.call ⟨env, .createSession userId⟩).opens s).toList := by
  change (Operation.unit (UserService.createSession env userId) s).2.world.db.sessions.rows = _
  rw [unit_apply]
  cases hadd : UserService.createSession env userId s.world with
  | error e => simp [Change.opens, hadd, Except.toOption]
  | ok p =>
    obtain ⟨new, w'⟩ := p
    obtain ⟨_, t, ht, rfl⟩ := (add_ok_iff _ new s.world w').mp hadd
    simp only [Change.opens, hadd]
    exact (Table.insert_eq_some ht).2.1

theorem mem_sessions_of_same {r : UserSession} (h : Site.sessions ∉ c.footprint) (hopens : c.opens s = none)
    (hends : c ≠ .deleteSession r.token) : r ∈ (s.next c).world.db.sessions.rows ↔
      c.opens s = some r ∨ r ∈ s.world.db.sessions.rows ∧ c ≠ .deleteSession r.token := by
  have hsame : (s.next c).world.db.sessions = s.world.db.sessions := next_same h
  rw [hsame, hopens]
  simp [hends]

/-- A session is stored by the change that opens it, and removed with its token. -/
theorem mem_sessions_next {r : UserSession} : r ∈ (s.next c).world.db.sessions.rows ↔
    c.opens s = some r ∨ r ∈ s.world.db.sessions.rows ∧ c ≠ .deleteSession r.token := by
  cases c with
  | call i =>
    obtain ⟨env, operation⟩ := i
    cases operation with
    | createSession userId =>
      change r ∈ (perform s _).world.db.sessions.rows ↔ _
      rw [opens_rows]
      simp [or_comm]
    | _ => exact mem_sessions_of_same (by simp [Change.footprint, Operation.footprint]) rfl nofun
  | deleteSession token =>
    change r ∈ (s.world.db.sessions.delete fun s => s.token = token).rows ↔ _
    rw [Table.mem_delete_iff]
    simp [Change.opens, eq_comm]
  | _ => exact mem_sessions_of_same (by simp [Change.footprint]) rfl nofun

/-- The stored sessions are those that have been opened and not ended. -/
theorem mem_sessions_iff {session : UserSession} :
    session ∈ (System.after files changes).world.db.sessions.rows ↔ Opened files changes session := by
  have hsince : Opened files changes session ↔ Runs.Since System.next (fun s c => c.opens s = some session)
      (fun _ c => c = .deleteSession session.token) (.initial files) changes := by
    rw [Runs.since_iff_forall]
    rfl
  rw [hsince]
  exact Runs.flag_iff_of_forall (P := fun s : System => session ∈ s.world.db.sessions.rows)
    (fun s c => mem_sessions_next) (by simp [System.initial, Database.empty, Table.empty])

/-! ## Acceptances of the terms -/

theorem add_acceptance {a new : TermsAcceptance} {w' : World} (h : add a w = .ok (new, w')) :
    w'.db.acceptances.rows = w.db.acceptances.rows ++ [new] ∧ new = { a with id := w.db.acceptances.next } := by
  obtain ⟨_, t, ht, rfl⟩ := (add_ok_iff a new w w').mp h
  obtain ⟨hnew, hrows, _⟩ := Table.insert_eq_some ht
  exact ⟨hrows, hnew⟩

theorem register_acceptances {organizationName userName email rawPassword : String}
    {ipAddress userAgent : Option String} {o : Organization} {u : User}
    {w' : World} (h : RegistrationService.register env organizationName userName email rawPassword
      ipAddress userAgent w =
      .ok ((o, u), w')) : w'.db.acceptances.rows = w.db.acceptances.rows ++
        [{ TermsAcceptance.record u.id o.id currentTermsVersion ipAddress userAgent env.now with
          id := w.db.acceptances.next }] := by
  simp only [RegistrationService.register, Work.bind_ok_iff, Work.lift_ok_iff, lift_work_ok_iff,
    Work.pure_ok_iff, Prod.mk.injEq] at h
  obtain ⟨_, _, ⟨_, rfl⟩, _, _, ⟨_, rfl⟩, _, _, ⟨_, rfl⟩, organization, w₁, ho, _, _, ⟨_, rfl⟩, role, w₂, hr,
    _, _, ⟨_, rfl⟩, user, w₃, hu, acceptance, w₄, ha, ⟨rfl, rfl⟩, rfl⟩ := h
  obtain ⟨hrows, hnew⟩ := add_acceptance ha
  obtain ⟨_, _, _, rfl⟩ := (add_ok_iff _ _ w w₁).mp ho
  obtain ⟨_, _, _, rfl⟩ := (add_ok_iff _ _ _ w₂).mp hr
  obtain ⟨_, _, _, rfl⟩ := (add_ok_iff _ _ _ w₃).mp hu
  rw [hrows, hnew]
  rfl

theorem google_acceptances {identity : GoogleIdentity} {termsVersion : String} {ipAddress userAgent : Option String}
    {u : User} {w' : World} (h : SocialAuthService.loginOrRegisterGoogle env identity termsVersion ipAddress
      userAgent w = .ok (u, w')) :
    (UserService.getByEmail identity.email w = .ok none ∧ w'.db.acceptances.rows = w.db.acceptances.rows ++
      [{ TermsAcceptance.record u.id u.organizationId termsVersion ipAddress userAgent env.now with
        id := w.db.acceptances.next }]) ∨
    ∃ existing, UserService.getByEmail identity.email w = .ok (some existing) ∧
      w'.db.acceptances = w.db.acceptances := by
  simp only [SocialAuthService.loginOrRegisterGoogle, Work.bind_ok_iff, Work.lift_ok_iff,
    lift_work_ok_iff] at h
  obtain ⟨_, _, ⟨_, rfl⟩, _, _, ⟨_, rfl⟩, found, _, ⟨hfound, rfl⟩, h⟩ := h
  cases found with
  | some existing =>
    simp only [Work.bind_ok_iff, lift_work_ok_iff, Work.pure_ok_iff] at h
    obtain ⟨_, _, ⟨_, rfl⟩, _, _, hsave, rfl, rfl⟩ := h
    obtain ⟨_, t, _, rfl⟩ := (save_ok_iff _ _ _).mp hsave
    exact Or.inr ⟨existing, hfound, rfl⟩
  | none =>
    simp only [Work.bind_ok_iff, Work.lift_ok_iff, lift_work_ok_iff, Work.pure_ok_iff] at h
    obtain ⟨_, _, ⟨_, rfl⟩, _, _, ⟨_, rfl⟩, organization, w₁, ho, _, _, ⟨_, rfl⟩, role, w₂, hr,
      u', _, ⟨hu', rfl⟩, user, w₃, hu, acceptance, w₄, ha, rfl, rfl⟩ := h
    obtain ⟨hrows, hnew⟩ := add_acceptance ha
    obtain ⟨_, _, _, rfl⟩ := (add_ok_iff _ _ w w₁).mp ho
    obtain ⟨_, _, _, rfl⟩ := (add_ok_iff _ _ _ w₂).mp hr
    obtain ⟨_, t, ht, rfl⟩ := (add_ok_iff _ _ _ w₃).mp hu
    obtain ⟨hof, _, _⟩ := createSocial_ok (i := ⟨env, .createSession 0⟩) hu'
    have horganization : user.organizationId = organization.id := by
      obtain ⟨huser, _, _⟩ := Table.insert_eq_some ht
      rw [huser, ← hof]
      rfl
    refine Or.inl ⟨hfound, ?_⟩
    rw [hrows, hnew, horganization]
    rfl

theorem acceptances_of_same (h : Site.acceptances ∉ c.footprint) (haccepts : c.accepts s = none) :
    (s.next c).world.db.acceptances.rows = s.world.db.acceptances.rows ++ (c.accepts s).toList := by
  have hsame : (s.next c).world.db.acceptances = s.world.db.acceptances := next_same h
  rw [hsame, haccepts]
  exact (List.append_nil _).symm

/-- A change adds the acceptance that it records, and removes none. -/
theorem acceptances_next : (s.next c).world.db.acceptances.rows =
    s.world.db.acceptances.rows ++ (c.accepts s).toList := by
  cases c with
  | call i =>
    obtain ⟨env, operation⟩ := i
    cases operation with
    | recordAcceptance userId organizationId ipAddress userAgent =>
      change (Operation.unit (ComplianceService.recordAcceptance env userId organizationId ipAddress userAgent)
        s).2.world.db.acceptances.rows = _
      rw [unit_apply]
      cases hadd : ComplianceService.recordAcceptance env userId organizationId ipAddress userAgent s.world with
      | error e => simp [Change.accepts, hadd, Except.toOption]
      | ok p =>
        obtain ⟨new, w'⟩ := p
        simp only [Change.accepts, hadd]
        exact (add_acceptance hadd).1
    | register organizationName userName email rawPassword ipAddress userAgent =>
      change (Operation.unitWithTokens (Accounts.register env organizationName userName email rawPassword
        ipAddress userAgent)
        s).2.world.db.acceptances.rows = _
      rw [unitWithTokens_apply]
      cases hregister : Accounts.register env organizationName userName email rawPassword ipAddress userAgent s with
      | error e => simp [Change.accepts, hregister, Except.toOption]
      | ok p =>
        obtain ⟨⟨organization, user, token⟩, s'⟩ := p
        obtain ⟨⟨_, u⟩, s₁, hstored, hissue⟩ := (Work.bind_ok_iff _ _ s s' _).mp hregister
        obtain ⟨hstored, _⟩ := onSystem_ok_iff.mp hstored
        obtain ⟨issued, s₂, hadd, hpure⟩ := (Work.bind_ok_iff _ _ s₁ s' _).mp hissue
        obtain ⟨heq, rfl⟩ := (Work.pure_ok_iff _ _ _ _).mp hpure
        obtain ⟨rfl, rfl, _⟩ : _ = organization ∧ u = user ∧ issued = token := by simpa using heq
        simp only [Change.accepts, hregister]
        rw [(Accounts.addToken_rows hadd).1, register_acceptances hstored]
        rfl
    | loginOrRegisterGoogle identity termsVersion ipAddress userAgent =>
      change (Operation.unit (SocialAuthService.loginOrRegisterGoogle env identity termsVersion ipAddress
        userAgent) s).2.world.db.acceptances.rows = _
      rw [unit_apply]
      cases hlogin : SocialAuthService.loginOrRegisterGoogle env identity termsVersion ipAddress userAgent
          s.world with
      | error e =>
        simp only [Change.accepts, hlogin]
        split <;> simp [Except.toOption]
      | ok p =>
        obtain ⟨u, w'⟩ := p
        rcases google_acceptances hlogin with ⟨hfound, hrows⟩ | ⟨existing, hfound, hsame⟩
        · simp only [Change.accepts, hfound, hlogin]
          exact hrows
        · simp only [Change.accepts, hfound]
          rw [hsame]
          exact (List.append_nil _).symm
    | _ => exact acceptances_of_same (by simp [Change.footprint, Operation.footprint]) rfl
  | _ => exact acceptances_of_same (by simp [Change.footprint]) rfl

/-- The acceptances are a log: all that were recorded, in their order. -/
theorem acceptances_eq_log : (System.after files changes).world.db.acceptances.rows =
    Runs.log System.next (fun s c => (c.accepts s).toList) (.initial files) changes :=
  Runs.field_eq_log (f := fun s : System => s.world.db.acceptances.rows) (fun _ _ => acceptances_next)
    (.initial files) changes

theorem consented_iff {userId : Nat} : Consented files changes userId ↔
    ∃ a ∈ (System.after files changes).world.db.acceptances.rows,
      a.userId = userId ∧ a.version = currentTermsVersion := by
  rw [acceptances_eq_log]
  constructor
  · rintro ⟨before, c, after, a, heq, haccepts, huser, hversion⟩
    refine ⟨a, Runs.mem_log_iff.mpr ⟨before, c, after, heq, ?_⟩, huser, hversion⟩
    exact Option.mem_toList.mpr haccepts
  · rintro ⟨a, ha, huser, hversion⟩
    obtain ⟨before, c, after, heq, hmem⟩ := Runs.mem_log_iff.mp ha
    exact ⟨before, c, after, a, heq, Option.mem_toList.mp hmem, huser, hversion⟩

/-! ## The gate -/

theorem select_slug {o : Organization} (h : o ∈ w.db.organizations.rows) :
    w.db.organizations.select (fun o' => o'.slug = o.slug) = [o] := by
  refine Table.select_unique (k := ⟨"organizations_slug", 0, o.slug⟩) h (by simp) ?_
  intro o' _ ho'
  have hslug : o'.slug = o.slug := by simpa using ho'
  rw [← hslug]
  exact List.mem_singleton_self _

theorem getBySlug_iff {slug : String} {o : Organization} : OrganizationService.getBySlug slug w = .ok o ↔
    o ∈ w.db.organizations.rows ∧ o.slug = slug := by
  refine ⟨getBySlug_ok, ?_⟩
  rintro ⟨h, rfl⟩
  unfold OrganizationService.getBySlug
  rw [Read.bind_ok (oneOrNone_of_singleton (select_slug h))]
  rfl

/-- The active user of a session that has not expired. -/
theorem getUserBySessionToken_iff {token : String} {u : User} :
    UserService.getUserBySessionToken env token w = .ok (some u) ↔ u.isActive = true ∧
      ∃ session ∈ w.db.sessions.rows, session.token = token ∧ env.now < session.expiresAt ∧
        w.db.users.get session.userId = some u := by
  constructor
  · intro h
    obtain ⟨found, hfound, h⟩ := (Read.bind_ok_iff _ _ _ _).mp h
    cases found with
    | none => cases h
    | some session =>
      obtain ⟨hmem, htoken⟩ := oneOrNone_eq_some hfound
      simp only at h
      split at h
      · rename_i hvalid
        simp only [Read.bind_ok_iff, find_apply, Except.ok.injEq, Read.pure_apply,
          Option.filter_eq_some_iff] at h
        obtain ⟨_, rfl, hget, hactive⟩ := h
        exact ⟨hactive, session, hmem, by simpa using htoken, by simpa [UserSession.isValid] using hvalid, hget⟩
      · cases h
  · rintro ⟨hactive, session, hmem, rfl, hnow, hget⟩
    unfold UserService.getUserBySessionToken
    rw [Read.bind_ok (oneOrNone_of_singleton (select_session hmem))]
    have hvalid : session.isValid env.now = true := by simpa [UserSession.isValid] using hnow
    simp only [if_pos hvalid]
    rw [Read.bind_ok (find_apply session.userId w)]
    change Except.ok (Option.filter _ (w.db.users.get session.userId)) = _
    rw [hget, Option.filter_some, if_pos hactive]

theorem hasAcceptedCurrent_apply (userId : Nat) : ComplianceService.hasAcceptedCurrent userId w =
    .ok (!(w.db.acceptances.select fun a => a.userId = userId && a.version = currentTermsVersion).isEmpty) := rfl

theorem hasAcceptedCurrent_iff {userId : Nat} : ComplianceService.hasAcceptedCurrent userId w = .ok true ↔
    ∃ a ∈ w.db.acceptances.rows, a.userId = userId ∧ a.version = currentTermsVersion := by
  rw [hasAcceptedCurrent_apply, Except.ok.injEq, Bool.not_eq_true', List.isEmpty_eq_false_iff_exists_mem]
  simp only [Table.mem_select_iff, Bool.and_eq_true, decide_eq_true_eq]

/-- The user whom the gate finds by the cookie. -/
theorem cookie_iff {sessionToken : Option String} {u : User} :
    (match sessionToken.bind Text.orNone with
      | some token => UserService.getUserBySessionToken env token
      | none => pure none : Query (Option User)) w = .ok (some u) ↔ u.isActive = true ∧
        ∃ session ∈ w.db.sessions.rows, sessionToken = some session.token ∧ session.token ≠ "" ∧
          env.now < session.expiresAt ∧ w.db.users.get session.userId = some u := by
  cases sessionToken with
  | none => simp
  | some token =>
    by_cases hempty : token = ""
    · subst hempty
      constructor
      · nofun
      · rintro ⟨_, session, _, heq, hne, _⟩
        exact absurd (Option.some.inj heq).symm hne
    · have htoken : (some token).bind Text.orNone = some token := if_neg hempty
      rw [htoken]
      refine getUserBySessionToken_iff.trans (and_congr_right fun _ => ?_)
      refine exists_congr fun session => and_congr_right fun _ => ?_
      rw [Option.some.injEq, eq_comm]
      constructor
      · rintro ⟨rfl, hrest⟩
        exact ⟨rfl, hempty, hrest⟩
      · rintro ⟨rfl, _, hrest⟩
        exact ⟨rfl, hrest⟩

theorem dependencies_ok_iff {r : Request} {v : Viewer} : dependencies env r w = .ok v ↔
    Admitted env r w v ∧ (∃ session ∈ w.db.sessions.rows, r.sessionToken = some session.token ∧
      session.token ≠ "" ∧ env.now < session.expiresAt ∧ w.db.users.get session.userId = some v.user) ∧
    ∃ a ∈ w.db.acceptances.rows, a.userId = v.user.id ∧ a.version = currentTermsVersion := by
  constructor
  · intro h
    refine ⟨admitted_of_dependencies h, ?_⟩
    simp only [dependencies, enforceLoginAndMembership, Read.bind_ok_iff] at h
    obtain ⟨organization, _, found, hfound, h⟩ := h
    cases found with
    | none => cases h
    | some user =>
      simp only at h
      split at h
      · cases h
      · obtain ⟨accepted, haccepted, h⟩ := (Read.bind_ok_iff _ _ _ _).mp h
        split at h
        · rename_i htrue
          subst htrue
          obtain ⟨role, _, h⟩ := (Read.bind_ok_iff _ _ _ _).mp h
          obtain rfl := Except.ok.inj h
          exact ⟨(cookie_iff.mp hfound).2, hasAcceptedCurrent_iff.mp haccepted⟩
        · cases h
  · rintro ⟨hadmitted, hsession, haccepted⟩
    unfold dependencies
    rw [Read.bind_ok (getBySlug_iff.mpr ⟨hadmitted.organization, hadmitted.slug⟩)]
    refine (Read.bind_ok_iff _ _ _ _).mpr ⟨some v.user, cookie_iff.mpr ⟨hadmitted.active, hsession⟩, ?_⟩
    simp only [ne_eq, hadmitted.member, not_true_eq_false, if_false]
    rw [Read.bind_ok (hasAcceptedCurrent_iff.mpr haccepted)]
    simp only [if_true]
    have hrole : RoleService.get v.user.roleId w = .ok v.role := (require_ok_iff "role" _ _ _).mpr hadmitted.role
    rw [Read.bind_ok hrole]
    rfl

/-- After any history the gate lets in whoever is entitled by what has happened, and nobody else. -/
theorem dependencies_iff_entitled {r : Request} {v : Viewer} :
    dependencies env r (System.after files changes).world = .ok v ↔ Entitled files changes env r v := by
  rw [dependencies_ok_iff]
  constructor
  · rintro ⟨hadmitted, ⟨session, hmem, hcookie, hne, hnow, hget⟩, haccepted⟩
    refine ⟨hadmitted, ⟨session, hcookie, hne, ?_, hnow, mem_sessions_iff.mp hmem⟩,
      consented_iff.mpr haccepted⟩
    exact (Table.get_eq_some_iff.mp hget).2.symm
  · rintro ⟨hadmitted, ⟨session, hcookie, hne, huser, hnow, hopened⟩, hconsent⟩
    refine ⟨hadmitted, ⟨session, mem_sessions_iff.mpr hopened, hcookie, hne, hnow, ?_⟩,
      consented_iff.mp hconsent⟩
    exact Table.get_eq_some_iff.mpr ⟨hadmitted.user, huser.symm⟩

end Orchestract
