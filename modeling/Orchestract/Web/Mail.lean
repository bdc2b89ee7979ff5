import Orchestract.Accounts.Issuance
import Orchestract.Operations.Reaches
import Orchestract.Web.Browsers

/-!
# Mail

A link that is mailed signs in whoever has it. The link of a token goes to the address of the user of
the token, and no mail goes to anybody who is not a user.
-/

namespace Orchestract

set_option autoImplicit false

/-- The link of a token. -/
def UserToken.link (settings : Settings) (t : UserToken) : String :=
  match t.purpose with
  | .emailVerification => s!"{settings.appBaseUrl}/verify-email?token={t.token}"
  | .passwordReset => s!"{settings.appBaseUrl}/reset-password?token={t.token}"

/-- The link of the mail is that of the token, and may lead on to a plan. -/
def Email.Carries (mail : Email) (t : UserToken) : Prop :=
  ∃ settings, mail.link = t.link settings ∨ ∃ plan ∈ RootRoutes.paidPlans, mail.link = t.link settings ++ s!"&plan={plan}"

/-- The token of the link that a request follows, and what it is for. -/
def RootRoute.follows : RootRoute → Option (String × UserTokenPurpose)
  | .verifyEmail token _ => some (token, .emailVerification)
  | .resetPasswordSubmit token _ => some (token, .passwordReset)
  | _ => none

/-- The mails of an event. -/
def Web.emails (w : Web) : Web.Event → List Email
  | .request browser env remote forwardedFor host userAgent route =>
    (w.reply browser env remote forwardedFor host userAgent route).emails
  | _ => []

/-- All mails of a run. -/
def Web.outbox (w : Web) (events : List Web.Event) : List Email := Runs.log Web.next Web.emails w events

/-- Links are asked for at the root routes only. -/
def Web.AsksByMail (w : Web) : Web.Event → Prop
  | .background c => c.issues w.system = none
  | _ => True

/-- The link of the token has been mailed to its user. -/
def Mailed (s : System) (outbox : List Email) (t : UserToken) : Prop :=
  ∃ user, s.world.db.users.get t.userId = some user ∧ ∃ mail ∈ outbox, mail.recipient = user.email ∧ mail.Carries t

/-- Every mail is for a user. -/
def ToUsers (s : System) (outbox : List Email) : Prop :=
  ∀ mail ∈ outbox, ∃ user ∈ s.world.db.users.rows, user.email = mail.recipient

/-- What is stored has been mailed, and what has been mailed was for users. -/
structure Posted (s : System) (outbox : List Email) : Prop where
  stored : ∀ t ∈ s.tokens.rows, Mailed s outbox t
  own : ToUsers s outbox

/-- Users stay, with their addresses. -/
def EmailsLast (w w' : World) : Prop :=
  ∀ id u, w.db.users.get id = some u → ∃ u', w'.db.users.get id = some u' ∧ u'.email = u.email

variable {α β : Type} {env : Env} {remote : RemoteServices} {r : Sender} {s s' : System} {w w' : World}
  {route : RootRoute}

/-! ## Addresses -/

theorem emailsLast_of_eq (h : w'.db.users = w.db.users) : EmailsLast w w' :=
  fun _ u hu => ⟨u, by rw [h]; exact hu, rfl⟩

theorem EmailsLast.trans {w₁ : World} (h : EmailsLast w w₁) (h' : EmailsLast w₁ w') : EmailsLast w w' := by
  intro id u hu
  obtain ⟨u₁, hu₁, hemail₁⟩ := h id u hu
  obtain ⟨u', hu', hemail'⟩ := h' id u₁ hu₁
  exact ⟨u', hu', hemail'.trans hemail₁⟩

theorem emailsLast_committed {i : Input} (h : Committed i w w') : EmailsLast w w' := by
  cases h with
  | newAccount _ _ _ _ _ hinsert => exact fun _ u hu => ⟨u, Table.get_of_insert hinsert hu, rfl⟩
  | newUser _ _ _ hinsert => exact fun _ u hu => ⟨u, Table.get_of_insert hinsert hu, rfl⟩
  | @user r r' _ hr edit _ hupdate =>
    intro id u hu
    by_cases hid : id = Row.id r'
    · subst hid
      have hget : w.db.users.get (Row.id r') = some r := Table.get_eq_some_iff.mpr ⟨hr, edit.id.symm⟩
      obtain rfl := Option.some.inj (hget.symm.trans hu)
      exact ⟨r', Table.get_of_update hupdate hget, edit.email⟩
    · refine ⟨u, ?_, rfl⟩
      rw [Table.get_update hupdate, if_neg hid]
      exact hu
  | _ => exact emailsLast_of_eq rfl

theorem emailsLast_next (s : System) (c : Change) : EmailsLast s.world (s.next c).world := by
  cases c with
  | call i =>
    exact perform_invariant (I := EmailsLast s.world) (fun _ _ h hstep => h.trans (emailsLast_committed hstep))
      (emailsLast_of_eq rfl)
  | _ => exact emailsLast_of_eq (next_same (n := .users) (by simp [Change.footprint]))

theorem emailsLast_run (s : System) (changes : List Change) :
    EmailsLast s.world (Runs.run System.next s changes).world :=
  Runs.run_invariant (I := fun s' : System => EmailsLast s.world s'.world)
    (fun s' c h => h.trans (emailsLast_next s' c)) (emailsLast_of_eq rfl) changes

theorem emailsLast_answer (env : Env) (remote : RemoteServices) (r : Sender) (route : RootRoute) (s : System) :
    EmailsLast s.world (answer env remote r route s).2.world := by
  have heffect := answer_effect env remote r route s
  generalize answer env remote r route s = p at heffect
  cases heffect with
  | quiet | ended | signedIn | lost => exact emailsLast_run s _

theorem Mailed.later {outbox outbox' : List Email} {t : UserToken} (hlast : EmailsLast s.world s'.world)
    (hsub : outbox ⊆ outbox') (h : Mailed s outbox t) : Mailed s' outbox' t := by
  obtain ⟨user, huser, mail, hmem, hto, hcarries⟩ := h
  obtain ⟨user', huser', hemail⟩ := hlast t.userId user huser
  exact ⟨user', huser', mail, hsub hmem, hto.trans hemail.symm, hcarries⟩

theorem ToUsers.later {outbox : List Email} (hlast : EmailsLast s.world s'.world) (h : ToUsers s outbox) :
    ToUsers s' outbox := by
  intro mail hmem
  obtain ⟨user, huser, hemail⟩ := h mail hmem
  obtain ⟨user', huser', hsame⟩ := hlast user.id user (Table.get_eq_some_iff.mpr ⟨huser, rfl⟩)
  exact ⟨user', (Table.get_eq_some_iff.mp huser').1, hsame.trans hemail⟩

/-! ## Requests without mail -/

section

variable {T : List UserToken}

/-- No token is issued. -/
abbrev IssuesNone (T : List UserToken) (m : SystemAction α) : Prop := Program.Keeps (fun s => s.tokens.rows ⊆ T) m

/-- No token is issued, and nothing is mailed. -/
abbrev Silent (T : List UserToken) (m : SystemAction Reply) : Prop :=
  Program.Ensures (fun s => s.tokens.rows ⊆ T) m fun reply => reply.emails = []

theorem silent_pure {reply : Reply} (h : reply.emails = []) : Silent T (pure reply) := Program.ensures_pure h

theorem silent_bind {m : SystemAction α} {f : α → SystemAction Reply} (hm : IssuesNone T m)
    (hf : ∀ a, Silent T (f a)) : Silent T (m >>= f) :=
  Program.ensures_bind hm fun a _ => hf a

theorem silent_ite {c : Prop} [Decidable c] {m m' : SystemAction Reply} (h : Silent T m) (h' : Silent T m') :
    Silent T (if c then m else m') := by
  split
  · exact h
  · exact h'

theorem issuesNone_reading (read : Query α) : IssuesNone T (reading read) := fun _ hs => ⟨hs, fun _ _ => trivial⟩

theorem issuesNone_committing (m : UnitOfWork α) : IssuesNone T (committing m) := by
  intro s hs
  rw [committing_apply]
  cases m s.world <;> exact ⟨hs, fun _ _ => trivial⟩

theorem issuesNone_redeem (token : String) (purpose : UserTokenPurpose) (method : User → User) :
    IssuesNone T (liftM (Accounts.redeem env token purpose method) : SystemAction User) := by
  apply Program.keeps_work
  intro s hs user s' h
  refine ⟨fun t ht => ?_, trivial⟩
  rw [Accounts.redeem_ok h] at ht
  exact hs (Table.mem_delete_iff.mp ht).1

theorem issuesNone_catchingOnly (caught : DomainError → Bool) {act : SystemAction α} (h : IssuesNone T act) :
    IssuesNone T (catchingOnly caught act) := by
  apply Program.keeps_tryCatch
  · rw [map_eq_pure_bind]
    exact Program.keeps_bind h fun _ => Program.keeps_pure _
  · intro failure
    cases failure with
    | raised e =>
      simp only
      split
      · exact Program.keeps_pure _
      · exact Program.keeps_throw _
    | _ => exact Program.keeps_throw _

theorem silent_homeOf (user : User) : Silent T (RootRoutes.homeOf user) :=
  silent_bind (issuesNone_reading _) fun _ => silent_pure rfl

theorem silent_endSession {reply : Reply} (h : reply.emails = []) :
    Silent T (RootRoutes.endSession r >>= fun _ => pure reply) := by
  refine silent_bind ?_ fun _ => silent_pure h
  unfold RootRoutes.endSession
  split
  · exact issuesNone_committing _
  · exact Program.keeps_pure _

theorem silent_signIn (user : User) (redirectTo : Organization → String) :
    Silent T (RootRoutes.signIn env user redirectTo) :=
  silent_bind (issuesNone_committing _) fun _ => silent_bind (issuesNone_reading _) fun _ => silent_pure rfl

/-- The routes that mail. -/
def RootRoute.mails : RootRoute → Bool
  | .signupSubmit .. | .resendVerification _ | .forgotPasswordSubmit _ => true
  | _ => false

theorem silent_handle (h : route.mails = false) : Silent T (route.handle env remote r) := by
  cases route with
  | signupSubmit | resendVerification | forgotPasswordSubmit => cases h
  | pricingPage | loginPage | signupPage | forgotPasswordPage | resetPasswordPage => exact silent_pure rfl
  | index =>
    refine silent_bind (issuesNone_reading _) fun found => ?_
    cases found with
    | some user => exact silent_homeOf user
    | none => exact silent_pure rfl
  | termsPage =>
    refine silent_bind (issuesNone_reading _) fun found => ?_
    cases found with
    | some user => exact silent_bind (issuesNone_reading _) fun _ => silent_pure rfl
    | none => exact silent_pure rfl
  | termsReview =>
    refine silent_bind (issuesNone_reading _) fun found => ?_
    cases found with
    | none => exact silent_pure rfl
    | some user =>
      exact silent_bind (issuesNone_reading _) fun _ => silent_ite (silent_homeOf user) (silent_pure rfl)
  | termsAccept =>
    refine silent_bind (issuesNone_reading _) fun found => ?_
    cases found with
    | none => exact silent_pure rfl
    | some user => exact silent_bind (issuesNone_committing _) fun _ => silent_homeOf user
  | termsDecline | logout => exact silent_endSession rfl
  | setLanguage lang next =>
    refine silent_bind (issuesNone_reading _) fun found => ?_
    cases found with
    | none => exact silent_pure rfl
    | some user => exact silent_bind (issuesNone_committing _) fun _ => silent_pure rfl
  | loginSubmit email password next =>
    refine silent_bind (issuesNone_catchingOnly _ (issuesNone_reading _)) fun result => ?_
    cases result with
    | error e => exact silent_pure rfl
    | ok user => exact silent_signIn user _
  | googleLogin next => exact silent_ite (silent_pure rfl) (silent_pure rfl)
  | googleCallback code state error =>
    refine silent_ite (silent_pure rfl) (silent_bind (issuesNone_reading _) fun matched => ?_)
    refine silent_ite (silent_pure rfl) ?_
    cases remote.google.exchange code >>= GoogleOAuth.identity with
    | error e =>
      cases e with
      | valueError => exact fun _ hs => ⟨hs, nofun⟩
      | _ => exact silent_pure rfl
    | ok identity =>
      refine silent_bind (issuesNone_catchingOnly _ (issuesNone_committing _)) fun result => ?_
      cases result with
      | error e => exact silent_pure rfl
      | ok user =>
        exact Program.ensures_bind (silent_signIn user _) fun reply hreply => silent_pure hreply
  | verifyEmail token plan | resetPasswordSubmit token newPassword =>
    refine silent_bind (issuesNone_catchingOnly _ (issuesNone_redeem _ _ _)) fun result => ?_
    cases result with
    | error e => exact silent_pure rfl
    | ok user => exact silent_signIn user _
  | oauthCallback code state =>
    refine silent_bind (issuesNone_reading _) fun parsed => ?_
    obtain ⟨organizationId, provider⟩ := parsed
    cases organizationId with
    | negSucc _ => exact fun _ hs => ⟨hs, nofun⟩
    | ofNat organizationId =>
      exact silent_bind (issuesNone_committing _) fun _ => silent_bind (issuesNone_reading _) fun _ => silent_pure rfl

end

/-! ## Requests that mail -/

/-- The tokens that are new are mailed, and all mails are for users. -/
structure Posts (s : System) (p : Reply × System) : Prop where
  issued : ∀ t ∈ p.2.tokens.rows, t ∈ s.tokens.rows ∨ Mailed p.2 p.1.emails t
  own : ToUsers p.2 p.1.emails

/-- The token is that of this user, and the only new one. -/
structure IssuedTo (s s' : System) (user : User) (purpose : UserTokenPurpose) (new : UserToken) : Prop where
  stored : s'.world.db.users.get user.id = some user
  userId : new.userId = user.id
  purpose : new.purpose = purpose
  rows : ∀ t ∈ s'.tokens.rows, t ∈ s.tokens.rows ∨ t = new

theorem addToken_issued {t new : UserToken} {user : User} (h : UserTokens.add t s = .ok (new, s'))
    (huser : s.world.db.users.get user.id = some user) (hid : t.userId = user.id) :
    IssuedTo s s' user t.purpose new := by
  obtain ⟨hworld, _, huserId, hpurpose, _, hrows⟩ := Accounts.addToken_rows h
  exact ⟨by rw [hworld]; exact huser, huserId.trans hid, hpurpose, fun t => (hrows t).mp⟩

theorem issueToken_issued {user : User} {purpose : UserTokenPurpose} {new : UserToken}
    (h : Accounts.issueToken env user.id purpose s = .ok (new, s')) (huser : s.world.db.users.get user.id = some user) :
    IssuedTo s s' user purpose new := by
  obtain ⟨_, s₁, hdelete, hadd⟩ := (Work.bind_ok_iff _ _ s s' new).mp h
  obtain ⟨_, rfl⟩ := Prod.mk.inj (Except.ok.inj hdelete)
  have hnew := addToken_issued hadd huser rfl
  exact ⟨hnew.stored, hnew.userId, hnew.purpose, fun t ht => (hnew.rows t ht).imp_left fun h =>
    (Table.mem_delete_iff.mp h).1⟩

theorem register_stored {organizationName userName email rawPassword : String}
    {ipAddress userAgent : Option String} {organization : Organization}
    {user : User} (h : RegistrationService.register env organizationName userName email rawPassword
      ipAddress userAgent w =
      .ok ((organization, user), w')) : w'.db.users.get user.id = some user := by
  simp only [RegistrationService.register, Work.bind_ok_iff, Work.lift_ok_iff, lift_work_ok_iff,
    Work.pure_ok_iff, Prod.mk.injEq] at h
  obtain ⟨_, _, ⟨_, rfl⟩, _, _, ⟨_, rfl⟩, _, _, ⟨_, rfl⟩, _, _, _, _, _, ⟨_, rfl⟩, _, _, _, _, _, ⟨_, rfl⟩,
    new, w₃, hus, _, w₄, has, ⟨rfl, rfl⟩, rfl⟩ := h
  obtain ⟨_, us, hus', rfl⟩ := (add_ok_iff _ new _ w₃).mp hus
  obtain ⟨_, _, _, rfl⟩ := (add_ok_iff _ _ _ w₄).mp has
  exact Table.get_inserted hus'

theorem register_issued {organizationName userName email rawPassword : String}
    {ipAddress userAgent : Option String} {organization : Organization}
    {user : User} {new : UserToken} (h : Accounts.register env organizationName userName email rawPassword
      ipAddress userAgent s =
      .ok ((organization, user, new), s')) : IssuedTo s s' user .emailVerification new := by
  obtain ⟨⟨_, u⟩, s₁, hregister, hissue⟩ := (Work.bind_ok_iff _ _ s s' _).mp h
  obtain ⟨hregister, htokens⟩ := onSystem_ok_iff.mp hregister
  obtain ⟨token, s₂, hadd, hpure⟩ := (Work.bind_ok_iff _ _ s₁ s' _).mp hissue
  obtain ⟨heq, rfl⟩ := (Work.pure_ok_iff _ _ _ _).mp hpure
  obtain ⟨_, rfl, rfl⟩ : _ = organization ∧ u = user ∧ token = new := by simpa using heq
  have huser := register_stored hregister
  have hnew := addToken_issued hadd huser rfl
  exact ⟨hnew.stored, hnew.userId, hnew.purpose, fun t ht => htokens ▸ hnew.rows t ht⟩

/-- Either nothing has happened, or a token has been issued to the user of this address. -/
theorem issueUnless_issued {user : User} {purpose : UserTokenPurpose} {refused : Prop} [Decidable refused]
    {found : Option (User × UserToken)} (huser : s.world.db.users.get user.id = some user)
    (h : (if refused then pure none else do
      let token ← Accounts.issueToken env user.id purpose
      return some (user, token) : SystemWork (Option (User × UserToken))) s = .ok (found, s')) :
    found = none ∧ s' = s ∨ ∃ new, found = some (user, new) ∧ IssuedTo s s' user purpose new := by
  split at h
  · obtain ⟨rfl, rfl⟩ := (Work.pure_ok_iff _ _ _ _).mp h
    exact Or.inl ⟨rfl, rfl⟩
  · obtain ⟨new, s₁, hissue, hpure⟩ := (Work.bind_ok_iff _ _ s s' _).mp h
    obtain ⟨rfl, rfl⟩ := (Work.pure_ok_iff _ _ _ _).mp hpure
    exact Or.inr ⟨new, rfl, issueToken_issued hissue huser⟩

/-- A token that is asked for by the address of its user. -/
theorem issuedByEmail {email : String} {purpose : UserTokenPurpose} {refused : User → Prop} [DecidablePred refused]
    {found : Option (User × UserToken)}
    (h : (do
      match ← (liftM (UserService.getByEmail email) : UnitOfWork (Option User)) with
      | none => return none
      | some user =>
        if refused user then return none
        let token ← Accounts.issueToken env user.id purpose
        return some (user, token) : SystemWork (Option (User × UserToken))) s = .ok (found, s')) :
    found = none ∧ s' = s ∨ ∃ user new, found = some (user, new) ∧ IssuedTo s s' user purpose new := by
  obtain ⟨user, _, hread, h⟩ := (Work.bind_ok_iff _ _ s s' _).mp h
  obtain ⟨hfound, rfl⟩ := Accounts.readWorld_ok_iff.mp hread
  cases user with
  | none =>
    obtain ⟨rfl, rfl⟩ := (Work.pure_ok_iff _ _ _ _).mp h
    exact Or.inl ⟨rfl, rfl⟩
  | some user =>
    have huser : s.world.db.users.get user.id = some user :=
      Table.get_eq_some_iff.mpr ⟨(oneOrNone_eq_some hfound).1, rfl⟩
    exact (issueUnless_issued huser h).imp_right fun ⟨new, hnew⟩ => ⟨user, new, hnew⟩

/-- The token is mailed to its user. -/
theorem posts_issued {user : User} {purpose : UserTokenPurpose} {new : UserToken} {reply : Reply} {mail : Email}
    (h : IssuedTo s s' user purpose new) (hemails : reply.emails = [mail]) (hto : mail.recipient = user.email)
    (hcarries : mail.Carries new) : Posts s (reply, s') := by
  constructor
  · intro t ht
    refine (h.rows t ht).imp_right ?_
    rintro rfl
    refine ⟨user, by rw [h.userId]; exact h.stored, mail, ?_, hto, hcarries⟩
    rw [hemails]
    exact List.mem_singleton_self _
  · intro given hmem
    rw [hemails] at hmem
    obtain rfl := List.mem_singleton.mp hmem
    exact ⟨user, (Table.get_eq_some_iff.mp h.stored).1, hto.symm⟩

theorem posts_nothing {reply : Reply} (htokens : s'.tokens.rows ⊆ s.tokens.rows) (hemails : reply.emails = []) :
    Posts s (reply, s') := by
  refine ⟨fun t ht => Or.inl (htokens ht), fun mail hmem => ?_⟩
  rw [hemails] at hmem
  cases hmem

theorem emails_ofFailure (e : Failure) : (Reply.ofFailure e).emails = [] := by
  cases e <;> rfl

/-- The reply to a request for a link by an address. -/
theorem posts_byEmail {m : SystemWork (Option (User × UserToken))} {purpose : UserTokenPurpose}
    {f : Option (User × UserToken) → Reply} (hnone : (f none).emails = [])
    (hsome : ∀ user new, new.purpose = purpose → ∃ mail, (f (some (user, new))).emails = [mail] ∧
      mail.recipient = user.email ∧ mail.Carries new)
    (hm : ∀ found s', m s = .ok (found, s') →
      found = none ∧ s' = s ∨ ∃ user new, found = some (user, new) ∧ IssuedTo s s' user purpose new) :
    Posts s (.ofResult (((liftM m : SystemAction _) >>= fun found => pure (f found)) s).1,
      (((liftM m : SystemAction _) >>= fun found => pure (f found)) s).2) := by
  rw [Program.bind_apply, Program.commit_apply]
  cases hrun : m s with
  | error e => exact posts_nothing (fun _ h => h) (emails_ofFailure e)
  | ok p =>
    obtain ⟨found, s'⟩ := p
    rcases hm found s' hrun with ⟨rfl, rfl⟩ | ⟨user, new, rfl, hnew⟩
    · exact posts_nothing (fun _ h => h) hnone
    · obtain ⟨mail, hemails, hto, hcarries⟩ := hsome user new hnew.purpose
      exact posts_issued hnew hemails hto hcarries

theorem posts_signup {organizationName userName email password acceptTerms plan : String} :
    Posts s (answer env remote r (.signupSubmit organizationName userName email password acceptTerms plan) s) := by
  change Posts s (.ofResult ((if acceptTerms = "" then _ else _ : SystemAction Reply) s).1,
    ((if acceptTerms = "" then _ else _ : SystemAction Reply) s).2)
  split
  · exact posts_nothing (fun _ h => h) rfl
  · rw [catchingOnly_bind, Program.commit_apply]
    cases hrun : Accounts.register env organizationName userName email password r.ipAddress r.userAgent s with
    | error failure =>
      cases failure with
      | raised e => exact posts_nothing (fun _ h => h) rfl
      | _ => exact posts_nothing (fun _ h => h) (emails_ofFailure _)
    | ok p =>
      obtain ⟨⟨organization, user, new⟩, s'⟩ := p
      have hnew := register_issued hrun
      refine posts_issued hnew rfl rfl ⟨env.settings, ?_⟩
      unfold UserToken.link
      rw [hnew.purpose]
      split
      · rename_i hplan
        exact Or.inr ⟨plan, hplan, rfl⟩
      · exact Or.inl rfl

/-- What a request issues it mails. -/
theorem answer_posts (env : Env) (remote : RemoteServices) (r : Sender) (route : RootRoute) (s : System) :
    Posts s (answer env remote r route s) := by
  cases hmails : route.mails with
  | false =>
    have hsilent : Silent s.tokens.rows (route.handle env remote r) := silent_handle hmails
    obtain ⟨htokens, hemails⟩ := hsilent s (List.Subset.refl _)
    refine posts_nothing htokens ?_
    cases hresult : (route.handle env remote r s).1 with
    | ok reply => exact hemails reply hresult
    | error e => exact emails_ofFailure e
  | true =>
    cases route with
    | signupSubmit => exact posts_signup
    | resendVerification email =>
      refine posts_byEmail rfl (fun user new hpurpose => ⟨_, rfl, rfl, env.settings, Or.inl ?_⟩)
        fun _ _ h => issuedByEmail h
      unfold UserToken.link
      rw [hpurpose]
    | forgotPasswordSubmit email =>
      refine posts_byEmail rfl (fun user new hpurpose => ⟨_, rfl, rfl, env.settings, Or.inl ?_⟩)
        fun _ _ h => issuedByEmail h
      unfold UserToken.link
      rw [hpurpose]
    | _ => cases hmails

/-! ## Runs -/

theorem getByToken_some {token : String} {purpose : UserTokenPurpose} {t : UserToken}
    (h : UserTokens.getByToken token purpose s = .ok (some t)) :
    t ∈ s.tokens.rows ∧ t.token = token ∧ t.purpose = purpose := by
  unfold UserTokens.getByToken at h
  split at h
  · cases h
  · rename_i found hselect
    obtain rfl := Option.some.inj (Except.ok.inj h)
    have hmem : found ∈ s.tokens.select (fun t => t.token = token && t.purpose = purpose) := by
      rw [hselect]
      exact List.mem_singleton_self _
    obtain ⟨hrow, hmatch⟩ := Table.mem_select_iff.mp hmem
    simp only [Bool.and_eq_true, decide_eq_true_eq] at hmatch
    exact ⟨hrow, hmatch⟩
  · cases h

/-- A token is redeemed for its own user. -/
theorem redeem_user {token : String} {purpose : UserTokenPurpose} {method : User → User} {user : User}
    (h : Accounts.redeem env token purpose method s = .ok (user, s')) :
    ∃ t ∈ s.tokens.rows, t.token = token ∧ t.purpose = purpose ∧
      ∃ u, s.world.db.users.get t.userId = some u ∧ user = method u := by
  obtain ⟨t, u, hread, hu, huser, _⟩ := Accounts.redeem_saves h
  obtain ⟨hrow, htoken, hpurpose⟩ := getByToken_some hread
  exact ⟨t, hrow, htoken, hpurpose, u, hu, huser⟩

/-- The token of the link that proves the user, and the address of the user. -/
theorem follows_user {token : String} {purpose : UserTokenPurpose} {user : User}
    (hfollows : route.follows = some (token, purpose)) (h : Proves env remote r s route user) :
    ∃ t ∈ s.tokens.rows, t.token = token ∧ t.purpose = purpose ∧ t.userId = user.id ∧
      ∃ u, s.world.db.users.get t.userId = some u ∧ u.email = user.email := by
  cases h with
  | password | google => cases hfollows
  | verification h | reset h =>
    obtain ⟨rfl, rfl⟩ := Prod.mk.inj (Option.some.inj hfollows)
    obtain ⟨t, ht, htoken, hpurpose, u, hu, rfl⟩ := redeem_user h
    exact ⟨t, ht, htoken, hpurpose, (Table.get_eq_some_iff.mp hu).2.symm, u, hu, rfl⟩

namespace Web

variable {w : Web} {event : Event} {outbox : List Email}

theorem posted_background {c : Change} (hw : Posted w.system outbox) (h : c.issues w.system = none) :
    Posted (w.system.next c) outbox := by
  have hlast := emailsLast_next w.system c
  have hheld : HeldByUsers w.system := by
    intro t ht
    obtain ⟨user, huser, _⟩ := hw.stored t ht
    rw [huser]
    exact Option.some_ne_none user
  have hrows : (w.system.next c).tokens.rows ⊆ w.system.tokens.rows := by
    have htokens := tokens_next hheld c
    rw [h] at htokens
    generalize c.redeems w.system = redeems at htokens
    cases htokens with
    | same heq => rw [heq]; exact List.Subset.refl _
    | redeemed _ heq =>
      intro t ht
      rw [heq] at ht
      exact (Table.mem_delete_iff.mp ht).1
  exact ⟨fun t ht => (hw.stored t (hrows ht)).later hlast (List.Subset.refl _), hw.own.later hlast⟩

theorem posted_next (hw : Posted w.system outbox) (h : w.AsksByMail event) :
    Posted (w.next event).system (outbox ++ w.emails event) := by
  cases event with
  | meddle => simpa [emails, next] using hw
  | background c => simpa [emails, next] using posted_background hw h
  | request browser env remote forwardedFor host userAgent route =>
    have hlast := emailsLast_answer env remote (w.sender browser forwardedFor host userAgent) route w.system
    have hposts := answer_posts env remote (w.sender browser forwardedFor host userAgent) route w.system
    constructor
    · intro t ht
      rcases hposts.issued t ht with hold | hnew
      · exact (hw.stored t hold).later hlast (List.subset_append_left _ _)
      · obtain ⟨user, huser, mail, hmem, hmail⟩ := hnew
        exact ⟨user, huser, mail, List.mem_append_right _ hmem, hmail⟩
    · intro mail hmem
      rcases List.mem_append.mp hmem with hold | hnew
      · exact hw.own.later hlast mail hold
      · exact hposts.own mail hnew

variable {files : Bucket → String → Option Bytes} {jar : Nat → Cookies} {events : List Event}

theorem posted_run (h : Runs.Along next AsksByMail (initial files jar) events) :
    Posted (Runs.run next (initial files jar) events).system ((initial files jar).outbox events) :=
  Runs.log_invariant (I := fun w outbox => Posted w.system outbox) (fun _ _ _ => posted_next)
    ⟨fun _ ht => absurd ht List.not_mem_nil, nofun⟩ h

/-- Whoever proves to be a user by a link has one that was mailed to the address of that user, and no mail
has gone to anybody who is not a user. -/
theorem follows_mailed (h : Runs.Along next AsksByMail (initial files jar) events) :
    ToUsers (Runs.run next (initial files jar) events).system ((initial files jar).outbox events) ∧
      ∀ (env : Env) (remote : RemoteServices) (r : Sender) (route : RootRoute) (user : User) token purpose,
        route.follows = some (token, purpose) →
        Proves env remote r (Runs.run next (initial files jar) events).system route user →
        ∃ mail ∈ (initial files jar).outbox events, mail.recipient = user.email ∧
          ∃ t, t.token = token ∧ t.purpose = purpose ∧ t.userId = user.id ∧ mail.Carries t := by
  have hposted := posted_run h
  refine ⟨hposted.own, fun env remote r route user token purpose hfollows hproves => ?_⟩
  obtain ⟨t, ht, htoken, hpurpose, hid, u, hu, hemail⟩ := follows_user hfollows hproves
  obtain ⟨user', huser', mail, hmem, hto, hcarries⟩ := hposted.stored t ht
  obtain rfl := Option.some.inj (hu.symm.trans huser')
  exact ⟨mail, hmem, hto.trans hemail, t, htoken, hpurpose, hid, hcarries⟩

end Web

/-! ## Alice signs up -/

def aliceSignsUp : Web.Event := .request 0 (.offline 1 "token") googleOfAlice "" none none
  (.signupSubmit "Acme" "Alice" "alice@acme.test" "secret" "on" "team")

/-- The link that Alice follows has been mailed to her. -/
theorem Web.follows_mailed_alice : ∃ mail ∈ noWeb.outbox [aliceSignsUp], mail.recipient = "alice@acme.test" := by
  have hverify : ((Accounts.verifyEmail (.offline 2 "") "token"
      (Runs.run Web.next noWeb [aliceSignsUp]).system).toOption.map fun p => p.1.email) =
        some "alice@acme.test" := by decide +kernel
  obtain ⟨⟨user, s'⟩, hsome, hemail⟩ := Option.map_eq_some_iff.mp hverify
  have hproves : Proves (.offline 2 "") googleOfAlice ⟨noCookies, "", none, none⟩
      (Runs.run Web.next noWeb [aliceSignsUp]).system (.verifyEmail "token" "team") user :=
    .verification (ok_of_toOption hsome)
  have hasks : Runs.Along Web.next Web.AsksByMail noWeb [aliceSignsUp] := ⟨trivial, trivial⟩
  obtain ⟨mail, hmem, hto, _⟩ := (Web.follows_mailed hasks).2 _ _ _ _ user "token" _ rfl hproves
  exact ⟨mail, hmem, hto.trans hemail⟩

end Orchestract
